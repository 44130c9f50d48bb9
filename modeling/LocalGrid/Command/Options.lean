import LocalGrid.Scenario.Basic

/-!
# Options

The arguments of the command line. Options may come in any order, and of one that is repeated the
last value counts; the leftmost argument that does not fit ends the reading.
-/

namespace LocalGrid.Command

structure Options where
  /-- The file of the scenario. -/
  scenario : Option String := none
  preset : Option String := none
  /-- A seed in place of that of the scenario. -/
  seed : Option UInt64 := none
  /-- Where the table of the steps is written. -/
  table : Option String := none
  /-- Where the document of the run is written. -/
  document : Option String := none
  /-- Whether the lines of the steps are left out. -/
  quiet : Bool := false
  deriving DecidableEq, Repr

/-- The options that take a value. -/
inductive Flag where
  | scenario
  | preset
  | seed
  | table
  | document
  deriving DecidableEq, Repr

namespace Flag

def word : Flag → String
  | .scenario => "--scenario"
  | .preset => "--preset"
  | .seed => "--seed"
  | .table => "--telemetry-out"
  | .document => "--json-out"

def valueName : Flag → String
  | .scenario => "path"
  | .preset => "name"
  | .seed => "u64"
  | .table => "path"
  | .document => "path"

def all : List Flag := [.scenario, .preset, .seed, .table, .document]

def ofWord? (word : String) : Option Flag := all.find? fun f => f.word = word

theorem ofWord?_word (f : Flag) : ofWord? f.word = some f := by
  cases f <;> rfl

end Flag

/-- Why the reading of arguments ends early. -/
inductive Stop where
  | help
  | unknown (argument : String)
  | valueMissing (flag : Flag)
  | badSeed (value : String)
  deriving DecidableEq, Repr

/-- The decimal number of a text, which a plus may precede. -/
def readSeed? (text : String) : Option UInt64 :=
  let digits := match text.toList with
    | '+' :: rest => rest
    | cs => cs
  if digits.isEmpty || !digits.all Char.isDigit then none
  else
    let n := digits.foldl (fun n c => 10 * n + (c.toNat - 48)) 0
    if n < UInt64.size then some (.ofNat n) else none

namespace Options

def set (o : Options) (value : String) : Flag → Except Stop Options
  | .scenario => .ok { o with scenario := some value }
  | .preset => .ok { o with preset := some value }
  | .seed => match readSeed? value with
    | some seed => .ok { o with seed := some seed }
    | none => .error (.badSeed value)
  | .table => .ok { o with table := some value }
  | .document => .ok { o with document := some value }

def asksHelp (argument : String) : Bool := argument == "--help" || argument == "-h"

def asksQuiet (argument : String) : Bool := argument == "--quiet" || argument == "-q"

def readFrom (o : Options) : List String → Except Stop Options
  | [] => .ok o
  | [argument] => match Flag.ofWord? argument with
    | some flag => .error (.valueMissing flag)
    | none =>
      if asksHelp argument then .error .help
      else if asksQuiet argument then .ok { o with quiet := true }
      else .error (.unknown argument)
  | argument :: value :: rest => match Flag.ofWord? argument with
    | some flag => do readFrom (← o.set value flag) rest
    | none =>
      if asksHelp argument then .error .help
      else if asksQuiet argument then readFrom { o with quiet := true } (value :: rest)
      else .error (.unknown argument)

def read (arguments : List String) : Except Stop Options := readFrom {} arguments

theorem read_nil : read [] = .ok {} := rfl

end Options

def helpLines : List String :=
  ["microgrid-sim: microgrid energy dispatch simulator",
   "",
   "Usage: microgrid-sim [OPTIONS]",
   "",
   "Options:",
   "  --scenario <path>        Load scenario from TOML config file",
   "  --preset <name>          Use a built-in preset (" ++ Scenario.presetNames ++ ")",
   "  --seed <u64>             Override random seed",
   "  --telemetry-out <path>   Export step results to CSV",
   "  --json-out <path>        Export the full result as JSON",
   "  --quiet                  Print only the KPI report",
   "  --help                   Show this help message",
   "",
   "If no --scenario or --preset is given, the microgrid preset is used."]

namespace Stop

def lines : Stop → List String
  | .help => helpLines
  | .unknown argument => ("error: unknown argument \"" ++ argument ++ "\"") :: helpLines
  | .valueMissing flag =>
    ["error: " ++ flag.word ++ " requires a " ++ flag.valueName ++ " argument"]
  | .badSeed value => ["error: --seed value \"" ++ value ++ "\" is not a valid u64"]

/-- The exit code; only a request for help succeeds. -/
def code : Stop → Nat
  | .help => 0
  | .unknown _ => 1
  | .valueMissing _ => 1
  | .badSeed _ => 1

end Stop

end LocalGrid.Command
