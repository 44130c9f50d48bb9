import LocalGrid.Decimal.Reading
import LocalGrid.Table.Row
import LocalGrid.Text.Blank
import LocalGrid.Text.Utf8

/-!
# Columns of a table

The numbers of one column, found by its name in the first row. Rows are checked in their order, and
in a row the count of its fields before their encoding, and both before the number.
-/

namespace LocalGrid.Table

/-- Why a table has no such column of numbers. Rows count from zero, the header being the first. -/
inductive ColumnError where
  | missing (column : String)
  | notNumber (row : Nat) (column cell : String) (reason : Decimal.ReadError)
  /-- A row has another number of fields than the header. -/
  | width (row : Nat) (place : Place) (found expected : Nat)
  /-- A field is no text, from a position in it on. -/
  | encoding (row : Nat) (place : Place) (field position : Nat)
  deriving DecidableEq, Repr

def ColumnError.message : ColumnError → String
  | .missing column => "column \"" ++ column ++ "\" not found"
  | .notNumber row column cell reason =>
    "row " ++ Nat.repr row ++ ": \"" ++ cell ++ "\" in column \"" ++ column ++ "\": "
      ++ reason.message
  | .width row place found expected =>
    "CSV error: record " ++ Nat.repr row ++ " (line: " ++ Nat.repr place.line ++ ", byte: "
      ++ Nat.repr place.byte ++ "): found record with " ++ Nat.repr found
      ++ " fields, but the previous record has " ++ Nat.repr expected ++ " fields"
  | .encoding row place field position =>
    "CSV parse error: record " ++ Nat.repr row ++ " (line " ++ Nat.repr place.line ++ ", field: "
      ++ Nat.repr field ++ ", byte: " ++ Nat.repr place.byte
      ++ "): invalid utf-8: invalid UTF-8 in field " ++ Nat.repr field ++ " near byte index "
      ++ Nat.repr position

/-- The kinds by which callers tell failures of reading apart. -/
inductive ErrorKind where
  /-- The content is not the expected one. -/
  | invalidData
  /-- The table has no such rows or texts. -/
  | other
  deriving DecidableEq, Repr

/-- A missing column and a cell that is no number are invalid data. -/
def ColumnError.kind : ColumnError → ErrorKind
  | .missing .. | .notNumber .. => .invalidData
  | .width .. | .encoding .. => .other

def isPadding (b : UInt8) : Bool :=
  b == 0x20 || b == 0x09 || b == lineFeed || b == 0x0C || b == carriageReturn

def trimField (field : List UInt8) : List UInt8 :=
  ((field.dropWhile isPadding).reverse.dropWhile isPadding).reverse

def Row.textsFrom (row : Nat) (place : Place) : Nat → List (List UInt8) →
    Except ColumnError (List String)
  | _, [] => .ok []
  | n, field :: rest =>
    match Text.decodeFrom 0 field with
    | .error position => .error (.encoding row place n position)
    | .ok cs => (textsFrom row place (n + 1) rest).map (String.ofList (Text.trim cs) :: ·)

def Row.header (r : Row) : Except ColumnError (List String) := textsFrom 0 r.place 0 r.fields

/-- The texts of a row below the header, which has to have as many fields. -/
def Row.cells (row width : Nat) (r : Row) : Except ColumnError (List String) :=
  if r.fields.length = width then textsFrom row r.place 0 (r.fields.map trimField)
  else .error (.width row r.place r.fields.length width)

def readCells (column : String) (index width : Nat) : Nat → List Row →
    Except ColumnError (List Float32)
  | _, [] => .ok []
  | row, r :: rest => do
    let cells ← r.cells row width
    let cell := cells.getD index ""
    match Decimal.read cell with
    | .error reason => .error (.notNumber row column cell reason)
    | .ok reading =>
      let xs ← readCells column index width (row + 1) rest
      pure (reading.toSingle :: xs)

/-- The numbers below the first header of a name. A table without rows has no columns. -/
def readColumn (column : String) (bytes : List UInt8) : Except ColumnError (List Float32) :=
  match rows bytes with
  | [] => .error (.missing column)
  | header :: body => do
    let names ← header.header
    match names.idxOf? column with
    | none => .error (.missing column)
    | some index => readCells column index header.fields.length 1 body

end LocalGrid.Table
