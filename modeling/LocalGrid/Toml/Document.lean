import LocalGrid.Toml.Key
import LocalGrid.Toml.Moment
import LocalGrid.Toml.Number
import LocalGrid.Toml.Table

/-!
# Documents

A document is a list of statements: headers of tables and values of keys, each on lines of its own.
Values nest in arrays and literal tables to a bounded depth, on which the reader of values recurs;
lists within one level are read with a bound on their length that is the length of the text.
-/

namespace LocalGrid.Toml

def readBoolean : Reader Bool
  | 't' :: 'r' :: 'u' :: 'e' :: rest => some (true, rest)
  | 'f' :: 'a' :: 'l' :: 's' :: 'e' :: rest => some (false, rest)
  | _ => none

/-- Reads a moment, a number or an integer, whichever comes first in this order. -/
def readNumeric : Reader Value := fun cs =>
  match afterMoment? cs with
  | some rest => some (.moment, rest)
  | none => match readNumber cs with
    | some (x, rest) => some (.number x, rest)
    | none => (readInteger cs).map fun (n, rest) => (.integer n, rest)

def readScalar : Reader Value
  | [] => none
  | c :: rest =>
    if c = doubleQuote ∨ c = singleQuote then
      (readText (c :: rest)).map fun (s, rest) => (.text s, rest)
    else if c == 't' || c == 'f' then
      (readBoolean (c :: rest)).map fun (b, rest) => (.boolean b, rest)
    else readNumeric (c :: rest)

/-- Reads at most `bound` items of an array up to the closing bracket. A comma may follow the last
one. -/
def readItems (item : Reader Value) : Nat → Reader (List Value)
  | 0, _ => none
  | bound + 1, cs => do
    match ← skipBlanks cs with
    | ']' :: rest => pure ([], rest)
    | cs =>
      let (v, rest) ← item cs
      match ← skipBlanks rest with
      | ',' :: rest =>
        let (vs, rest) ← readItems item bound rest
        pure (v :: vs, rest)
      | ']' :: rest => pure ([v], rest)
      | _ => none

def readPair (value : Reader Value) : Reader ((List String × String) × Value) := fun cs => do
  let (key, rest) ← readKey cs
  let rest ← after? '=' rest
  let (v, rest) ← value (skipSpaces rest)
  pure ((key, v), rest)

/-- Reads at most `bound` pairs of a literal table up to the closing brace. There is at least one,
and no comma follows the last one. -/
def readPairs (value : Reader Value) : Nat → Reader (List ((List String × String) × Value))
  | 0, _ => none
  | bound + 1, cs => do
    let (pair, rest) ← readPair value cs
    match skipSpaces rest with
    | ',' :: rest =>
      let (pairs, rest) ← readPairs value bound rest
      pure (pair :: pairs, rest)
    | '\x7d' :: rest => pure ([pair], rest)
    | _ => none

def readLiteral (value : Reader Value) : Reader Value := fun cs =>
  match skipSpaces cs with
  | '\x7d' :: rest => some (.table .literal [], rest)
  | cs => do
    let (pairs, rest) ← readPairs value cs.length cs
    let entries ← literalTable pairs
    pure (.table .literal entries, rest)

/-- Reads a value in which arrays and literal tables are nested to at most the given depth. -/
def readValue : Nat → Reader Value
  | 0, cs => readScalar cs
  | depth + 1, cs =>
    match cs with
    | '[' :: rest =>
      (readItems (readValue depth) rest.length rest).map fun (vs, rest) => (.array vs, rest)
    | '\x7b' :: rest => readLiteral (readValue depth) rest
    | cs => readScalar cs

def maxDepth : Nat := 79

/-- Reads a header after its first bracket, and gives the draft that it opens. -/
def readHeader (d : Draft) : Reader Draft
  | '[' :: rest => do
    let ((path, name), rest) ← readKey rest
    let rest ← after? ']' rest
    let rest ← after? ']' rest
    let rest ← afterStatement? rest
    let d ← d.openItem path name
    pure (d, rest)
  | cs => do
    let ((path, name), rest) ← readKey cs
    let rest ← after? ']' rest
    let rest ← afterStatement? rest
    let d ← d.openTable path name
    pure (d, rest)

def readStatements : Nat → Draft → List Char → Option Draft
  | 0, _, _ => none
  | bound + 1, d, cs =>
    match skipSpaces cs with
    | [] => some d
    | '[' :: rest => do
      let (d, rest) ← readHeader d rest
      readStatements bound d rest
    | c :: rest =>
      if c == '#' || c == '\n' || c == '\r' then do
        let rest ← afterStatement? (c :: rest)
        readStatements bound d rest
      else do
        let (((path, name), v), rest) ← readPair (readValue maxDepth) (c :: rest)
        let rest ← afterStatement? rest
        let d ← d.add path name v
        readStatements bound d rest

/-- Reads a document, whose text a byte order mark may precede. -/
def read? (text : String) : Option Entries := do
  let cs := match text.toList with
    | '\uFEFF' :: rest => rest
    | cs => cs
  let d ← readStatements (cs.length + 1) .empty cs
  d.close

end LocalGrid.Toml
