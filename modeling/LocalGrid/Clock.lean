import LocalGrid.Calendar.Timestamp
import LocalGrid.Setting

/-!
# The clock

A clock maps the indices of the steps of a run to timestamps: step `i` starts `i` step lengths
after the start. It can be moved one step at a time or to its end; all ways of moving it give the
same timestamp to the same index. A timestamp outside the calendar has no value.

An index is a 64-bit word that is read as a signed number, so one beyond half of the index range
counts backwards from the start. The offset of a step is the exact product of that number and the
step length.
-/

namespace LocalGrid

open Calendar

/-- A clock: its start, the length of its steps, the next step and their total number. -/
structure Clock where
  start : Timestamp
  duration : StepDuration
  current : Nat
  total : Nat
  deriving DecidableEq

namespace Clock

def new (start : Timestamp) (duration : StepDuration) (total : Nat) : Clock :=
  ⟨start, duration, 0, total⟩

/-- The distance of a step from the start, in minutes. With checks for overflow a product that is no
64-bit word is a panic; here the range of the calendar stands for it, since a step that far away has
no timestamp. -/
def offset (d : StepDuration) (index : UInt64) : Int := d.minutes * index.toInt64.toInt

def timestamp? (c : Clock) (index : UInt64) : Option Timestamp :=
  c.start.addSeconds? (offset c.duration index * 60)

/-- The next step and its timestamp, if the clock is not at its end, and the clock after it. -/
def tick? (c : Clock) : Option (Option (Nat × Timestamp) × Clock) :=
  if c.current < c.total then
    (c.timestamp? (UInt64.ofNat c.current)).map fun t =>
      (some (c.current, t), { c with current := c.current + 1 })
  else some (none, c)

def finished (c : Clock) : Clock := { c with current := max c.current c.total }

/-- The remaining step that lies farthest ahead. -/
def farthest (c : Clock) : Nat :=
  max c.current (min (c.total - 1) Int64.maxValue.toInt.toNat)

/-- Whether a step remains that has no timestamp, seen from the farthest one alone. -/
def leavesCalendar (c : Clock) : Bool :=
  c.current < c.total && (c.timestamp? (UInt64.ofNat c.farthest)).isNone

/-- The remaining steps with their timestamps. A clock that leaves the calendar is recognised before
any step is made. -/
def remaining? (c : Clock) : Option (List (Nat × Timestamp)) :=
  if c.leavesCalendar then none
  else (List.range' c.current (c.total - c.current)).mapM fun i =>
    (c.timestamp? (UInt64.ofNat i)).map fun t => (i, t)

def run? (c : Clock) : Option (List (Nat × Timestamp × Nat) × Clock) :=
  c.remaining?.map fun steps => (steps.map fun (i, t) => (i, t, t.hour), c.finished)

def timestamps? (c : Clock) : Option (List Timestamp) :=
  c.remaining?.map fun steps => steps.map Prod.snd

theorem mapM_eq_none_of_mem {β γ : Type} {f : β → Option γ} {xs : List β} {x : β} (hx : x ∈ xs)
    (h : f x = none) : xs.mapM f = none := by
  induction xs with
  | nil => simp at hx
  | cons y rest ih =>
    rw [List.mapM_cons]
    rcases List.mem_cons.1 hx with rfl | hx
    · simp [h]
    · simp [ih hx]

theorem farthest_mem {c : Clock} (h : c.current < c.total) :
    c.farthest ∈ List.range' c.current (c.total - c.current) := by
  rw [List.mem_range'_1, farthest]
  omega

/-- Looking at the farthest step first changes no answer. -/
theorem remaining?_eq_mapM (c : Clock) :
    c.remaining? = (List.range' c.current (c.total - c.current)).mapM fun i =>
      (c.timestamp? (UInt64.ofNat i)).map fun t => (i, t) := by
  rw [remaining?]
  split
  · next h =>
    rw [leavesCalendar, Bool.and_eq_true, decide_eq_true_eq, Option.isNone_iff_eq_none] at h
    exact (mapM_eq_none_of_mem (farthest_mem h.1) (by rw [h.2, Option.map_none])).symm
  · rfl

theorem tick?_finished (c : Clock) : c.finished.tick? = some (none, c.finished) := by
  have h : ¬ c.finished.current < c.finished.total := Nat.not_lt.2 (Nat.le_max_right _ _)
  rw [tick?, if_neg h]

end Clock

end LocalGrid
