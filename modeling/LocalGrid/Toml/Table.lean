import LocalGrid.Toml.Value

/-!
# Building tables

Every statement of a document changes one table at the end of a path. The path is walked by one
function, `extend`, which makes the tables that are missing; the same function builds literal
tables. A dotted key may only walk through tables that no header has opened and no literal has
closed, and it may only add to tables that dotted keys have made.
-/

namespace LocalGrid.Toml

/-- Replaces the value of a key in its place, or adds it at the end. -/
def alter {β : Type} (key : String) (f : Option Value → Option (Value × β)) :
    Entries → Option (Entries × β)
  | [] => (f none).map fun (v, b) => ([(key, v)], b)
  | (k, v) :: rest =>
    if k = key then (f (some v)).map fun (v, b) => ((k, v) :: rest, b)
    else (alter key f rest).map fun (rest, b) => ((k, v) :: rest, b)

/-- Whether a path may walk through a table. -/
def Origin.isOpen (dotted : Bool) : Origin → Bool
  | .literal => false
  | .header => !dotted
  | .implied => true
  | .dotted => true

/-- Changes the table at the end of a path that starts from a table. In an array of tables the path
goes through the last one. -/
def extend {β : Type} (dotted : Bool) (change : Origin → Entries → Option (Entries × β)) :
    List String → Origin → Entries → Option (Entries × β)
  | [], origin, entries => change origin entries
  | key :: path, _, entries =>
    alter key (fun
      | none =>
        let origin := if dotted then Origin.dotted else .implied
        (extend dotted change path origin []).map fun (es, b) => (.table origin es, b)
      | some (.table origin es) =>
        if origin.isOpen dotted then
          (extend dotted change path origin es).map fun (es, b) => (.table origin es, b)
        else none
      | some (.tables items) => do
        let last ← items.getLast?
        let (es, b) ← extend dotted change path .header last
        pure (.tables (items.dropLast ++ [es]), b)
      | some _ => none)
      entries

def addEntry (key : String) (v : Value) (entries : Entries) : Option (Entries × Unit) :=
  alter key (fun
    | none => some (v, ())
    | some _ => none) entries

/-- Adds the value of a key, given as a path and a name. A path of no parts adds to a table that no
dotted key made, any other path to one that a dotted key made. -/
def addValue (path : List String) (name : String) (v : Value) (origin : Origin)
    (entries : Entries) : Option Entries :=
  (extend true (fun origin es =>
    if decide (origin = .dotted) = path.isEmpty then none else addEntry name v es)
    path origin entries).map (·.1)

def literalTable : List ((List String × String) × Value) → Option Entries :=
  List.foldlM (fun es ((path, name), v) => addValue path name v .literal es) []

inductive Target where
  /-- The document itself, before the first header. -/
  | document
  /-- The table of a header. -/
  | table (path : List String) (name : String)
  /-- A new table in an array. -/
  | item (path : List String) (name : String)

/-- A document while it is read: what is complete, and the entries of the current table, which are
put in their place at the next header. -/
structure Draft where
  complete : Entries
  current : Entries
  target : Target

namespace Draft

def empty : Draft := ⟨[], [], .document⟩

def close (d : Draft) : Option Entries :=
  match d.target with
  | .document => some d.current
  | .table path name =>
    (extend false (fun _ es => addEntry name (.table .header d.current) es) path .header
      d.complete).map (·.1)
  | .item path name =>
    (extend false (fun _ es => alter name (fun
      | none => some (.tables [d.current], ())
      | some (.tables items) => some (.tables (items ++ [d.current]), ())
      | some _ => none) es) path .header d.complete).map (·.1)

/-- Opens the table of a header. A table that was only implied is taken out of its place and
continued. -/
def openTable (d : Draft) (path : List String) (name : String) : Option Draft := do
  let complete ← d.close
  let (complete, current) ← extend false (fun _ es =>
    match es.find? fun (k, _) => k = name with
    | none => some (es, [])
    | some (_, .table .implied current) => some (es.filter fun (k, _) => k ≠ name, current)
    | some _ => none) path .header complete
  pure ⟨complete, current, .table path name⟩

def openItem (d : Draft) (path : List String) (name : String) : Option Draft := do
  let complete ← d.close
  let (complete, _) ← extend false (fun _ es => alter name (fun
    | none => some (.tables [], ())
    | some (.tables items) => some (.tables items, ())
    | some _ => none) es) path .header complete
  pure ⟨complete, [], .item path name⟩

def add (d : Draft) (path : List String) (name : String) (v : Value) : Option Draft :=
  (addValue path name v .header d.current).map fun es => { d with current := es }

end Draft

end LocalGrid.Toml
