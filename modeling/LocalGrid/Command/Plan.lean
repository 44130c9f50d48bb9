import LocalGrid.Command.Options
import LocalGrid.Export.Run
import LocalGrid.Report.Text
import LocalGrid.Scenario.Loading
import LocalGrid.Scenario.Run

/-!
# Plans

What the command line does for given arguments and files, before anything is done. A plan either
stops with a message, and then writes nothing, or shows a finished run and names the files to
write. Carrying a plan out needs nothing but a way to write a file.
-/

namespace LocalGrid.Command

/-- What a process leaves behind besides files. -/
structure Outcome where
  code : Nat
  stdout : String
  stderr : String
  deriving DecidableEq, Repr

inductive ExportForm where
  | table
  | document
  deriving DecidableEq, Repr

def ExportForm.success (form : ExportForm) (path : String) : String :=
  match form with
  | .table => "Telemetry written to " ++ path
  | .document => "Result written to " ++ path

def ExportForm.failure (form : ExportForm) (reason : FileError) : String :=
  match form with
  | .table => "error: failed to write CSV: " ++ reason.message
  | .document => "error: failed to write JSON: " ++ reason.message

structure Export where
  form : ExportForm
  path : String
  content : String
  deriving DecidableEq, Repr

inductive Plan where
  /-- Show messages and end. -/
  | stop (code : Nat) (messages : List String)
  /-- Show a finished run and write files. -/
  | finish (stdout : String) (exports : List Export)
  deriving DecidableEq, Repr

def breakdownCode : Nat := 101

def unlines (lines : List String) : String := String.join (lines.map fun l => l ++ "\n")

/-- The scenario that options name: a file goes before a preset, and there is a default. -/
def Options.load (o : Options) (files : Files) : Except Scenario.LoadError Scenario :=
  match o.scenario, o.preset with
  | some path, _ => Scenario.fromFile files path
  | none, some name => Scenario.fromPreset name
  | none, none => .ok .microgrid

def Options.reseed (o : Options) (s : Scenario) : Scenario :=
  match o.seed with
  | some seed => { s with timing := { s.timing with seed := seed } }
  | none => s

def Options.shown (o : Options) (r : Scenario.Run) : String :=
  (if o.quiet then "" else unlines (r.result.records.map Export.recordLine) ++ "\n")
    ++ r.report.text ++ "\n"

def Options.exports (o : Options) (r : Scenario.Run) : List Export :=
  (o.table.toList.map fun path => ⟨.table, path, Export.table r.result.records⟩)
    ++ (o.document.toList.map fun path => ⟨.document, path, Export.documentText r.result⟩)

def failurePlan (e : Scenario.RunError) : Plan :=
  match e.fault? with
  | some fault => .stop 1 ["error: " ++ fault.message]
  | none => .stop breakdownCode ["error: the run has no result"]

def Options.planFor (o : Options) (files : Files) (today : Calendar.Day) (s : Scenario) : Plan :=
  match s.problems with
  | [] => match s.run files today with
    | .ok r => .finish (o.shown r) (o.exports r)
    | .error e => failurePlan e
  | problems => .stop 1 (problems.map (·.text))

def plan (files : Files) (today : Calendar.Day) (arguments : List String) : Plan :=
  match Options.read arguments with
  | .error s => .stop s.code s.lines
  | .ok o => match o.load files with
    | .error e => .stop 1 [e.message]
    | .ok s => o.planFor files today (o.reseed s)

def sourcePaths (s : Scenario) : List String :=
  s.demand.source.path.toList ++ s.thermal.source.path.toList
    ++ s.demand.buildings.filterMap (·.path)

/-- Writes files in order up to the first that fails. The messages come with whether all succeeded.
-/
def writeAll {m : Type → Type} [Monad m] (write : String → String → m (Except FileError Unit)) :
    List Export → m (List String × Bool)
  | [] => pure ([], true)
  | e :: rest => do
    match ← write e.path e.content with
    | .error reason => pure ([e.form.failure reason], false)
    | .ok () =>
      let (messages, ok) ← writeAll write rest
      pure (e.form.success e.path :: messages, ok)

def Plan.perform {m : Type → Type} [Monad m]
    (write : String → String → m (Except FileError Unit)) : Plan → m Outcome
  | .stop code messages => pure ⟨code, "", unlines messages⟩
  | .finish stdout exports => do
    let (messages, ok) ← writeAll write exports
    pure ⟨if ok then 0 else 1, stdout, unlines messages⟩

end LocalGrid.Command
