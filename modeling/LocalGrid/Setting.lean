import LocalGrid.Quantity

/-!
# Settings

The choices of a run that are made by a word: the length of a step, the battery policy and the
distribution of the wind. A word that names no choice is kept with the setting it was meant for,
so that the report of it can be written anywhere.
-/

namespace LocalGrid

inductive Setting where
  | stepDuration
  | dispatchMode
  | windModel
  deriving DecidableEq, Repr

def Setting.name : Setting → String
  | .stepDuration => "step_duration"
  | .dispatchMode => "dispatch_mode"
  | .windModel => "wind_model"

def Setting.words : Setting → String
  | .stepDuration => "\"hourly\" or \"15-min\""
  | .dispatchMode => "\"default\" or \"peak_shaving\""
  | .windModel => "\"normal\" or \"uniform\""

def Setting.complaint (s : Setting) (word : String) : String :=
  "must be " ++ s.words ++ ", got \"" ++ word ++ "\""

inductive StepDuration where
  | hourly
  | quarterHourly
  deriving DecidableEq, Repr

namespace StepDuration

def ofWord? : String → Option StepDuration
  | "hourly" => some .hourly
  | "15-min" => some .quarterHourly
  | "15min" => some .quarterHourly
  | _ => none

def word : StepDuration → String
  | .hourly => "hourly"
  | .quarterHourly => "15-min"

theorem ofWord?_word (d : StepDuration) : ofWord? d.word = some d := by
  cases d <;> rfl

def minutes : StepDuration → Nat
  | .hourly => 60
  | .quarterHourly => 15

/-- The length in hours; power times hours is energy. -/
def hours {α : Type} [Quantity α] : StepDuration → α
  | .hourly => 1
  | .quarterHourly => 1 / ((4 : Nat) : α)

end StepDuration

inductive DispatchMode where
  /-- Charge on a surplus, discharge on a deficit. -/
  | default
  /-- Charge on a surplus, discharge only while demand is among its highest fifth. -/
  | peakShaving
  deriving DecidableEq, Repr

namespace DispatchMode

def ofWord? : String → Option DispatchMode
  | "default" => some .default
  | "peak_shaving" => some .peakShaving
  | _ => none

def word : DispatchMode → String
  | .default => "default"
  | .peakShaving => "peak_shaving"

theorem ofWord?_word (m : DispatchMode) : ofWord? m.word = some m := by
  cases m <;> rfl

end DispatchMode

inductive WindModel where
  /-- The magnitude of a standard normal value. -/
  | normal
  /-- A share of one. -/
  | uniform
  deriving DecidableEq, Repr

namespace WindModel

def ofWord? : String → Option WindModel
  | "normal" => some .normal
  | "uniform" => some .uniform
  | _ => none

def word : WindModel → String
  | .normal => "normal"
  | .uniform => "uniform"

theorem ofWord?_word (m : WindModel) : ofWord? m.word = some m := by
  cases m <;> rfl

end WindModel

/-- Which generation profiles are limited in their change from step to step. -/
structure RampTargets where
  solar : Bool
  wind : Bool
  chp : Bool
  deriving DecidableEq, Repr

namespace RampTargets

def windOnly : RampTargets := ⟨false, true, false⟩

def windAndChp : RampTargets := ⟨false, true, true⟩

def none : RampTargets := ⟨false, false, false⟩

end RampTargets

end LocalGrid
