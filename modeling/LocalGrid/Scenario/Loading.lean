import LocalGrid.Files
import LocalGrid.Scenario.Problem
import LocalGrid.Scenario.Reading

/-!
# Loading scenarios

Where a scenario comes from: a text, a file, or a preset.
-/

namespace LocalGrid.Scenario

def reportText (field reason : String) : String := "config error: " ++ field ++ ": " ++ reason

def Problem.text (p : Problem) : String := reportText p.field p.reason

inductive LoadError where
  | text (reason : TextError)
  | unreadable (path : String) (reason : FileError)
  | unknownPreset (name : String)
  deriving DecidableEq, Repr

def LoadError.field : LoadError → String
  | .text _ => "toml"
  | .unreadable _ _ => "scenario"
  | .unknownPreset _ => "preset"

def LoadError.reason : LoadError → String
  | .text reason => reason.message
  | .unreadable path reason => "cannot read \"" ++ path ++ "\": " ++ reason.message
  | .unknownPreset name => "unknown preset \"" ++ name ++ "\", available: " ++ presetNames

def LoadError.message (e : LoadError) : String := reportText e.field e.reason

def fromText (text : String) : Except LoadError Scenario := (ofText text).mapError .text

def fromFile (files : Files) (path : String) : Except LoadError Scenario := do
  let text ← (files.text path).mapError (.unreadable path)
  fromText text

def fromPreset (name : String) : Except LoadError Scenario :=
  match preset? name with
  | some s => .ok s
  | none => .error (.unknownPreset name)

end LocalGrid.Scenario
