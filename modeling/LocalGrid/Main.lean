import LocalGrid.Command.Plan
import Std.Time

/-!
# The program

Reads the files that a run may need, makes the plan, and carries it out. The only other thing taken
from outside is the date of today.
-/

namespace LocalGrid.Main

def fileError : IO.Error → FileError
  | .noFileOrDirectory _ code details => .system details code.toNat
  | .permissionDenied _ code details => .system details code.toNat
  | .inappropriateType _ code details => .system details code.toNat
  | .resourceBusy code details => .system details code.toNat
  | .resourceExhausted _ code details => .system details code.toNat
  | .invalidArgument _ code details => .system details code.toNat
  | e => .system (toString e) 0

def readFiles (paths : List String) : IO (List (String × Except FileError (List UInt8))) :=
  paths.mapM fun (path : String) => do
    try
      let bytes ← IO.FS.readBinFile path
      pure (path, .ok bytes.toList)
    catch e => pure (path, .error (fileError e))

def known (contents : List (String × Except FileError (List UInt8))) : Files := fun path =>
  match contents.find? fun (name, _) => name = path with
  | some (_, content) => content
  | none => .error .notFound

def writeFile (path content : String) : IO (Except FileError Unit) := do
  try
    IO.FS.writeFile path content
    pure (.ok ())
  catch e => pure (.error (fileError e))

def today : IO Calendar.Day := do
  let date ← Std.Time.PlainDate.now
  let d : Calendar.Date := ⟨date.year, date.month.val.toNat, date.day.val.toNat⟩
  pure d.toDay

def neededFiles (arguments : List String) : IO Files := do
  match Command.Options.read arguments with
  | .error _ => pure (known [])
  | .ok o =>
    let first ← readFiles o.scenario.toList
    match o.load (known first) with
    | .error _ => pure (known first)
    | .ok s =>
      let more ← readFiles (Command.sourcePaths s)
      pure (known (first ++ more))

end LocalGrid.Main

open LocalGrid in
def main (arguments : List String) : IO UInt32 := do
  let files ← Main.neededFiles arguments
  let outcome ← (Command.plan files (← Main.today) arguments).perform Main.writeFile
  (← IO.getStdout).putStr outcome.stdout
  (← IO.getStderr).putStr outcome.stderr
  pure (UInt32.ofNat outcome.code)
