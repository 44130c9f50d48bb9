/-!
# Rows of a table

The bytes of a table, cut into rows of fields. A line feed or a carriage return ends a row; empty
lines are no rows. A field that starts with a quote runs to the next single quote, with doubled
quotes inside it, and anything between that quote and the next comma belongs to the field. A quote
inside another field is a byte like any other.
-/

namespace LocalGrid.Table

/-- A place in a text: how many bytes come before it and on which line it is, counted from one. -/
structure Place where
  byte : Nat
  line : Nat
  deriving DecidableEq, Repr

/-- A row and the place where the reading of it began, which is the end of the row before. -/
structure Row where
  fields : List (List UInt8)
  place : Place
  deriving DecidableEq, Repr

def comma : UInt8 := 0x2C

def quote : UInt8 := 0x22

def lineFeed : UInt8 := 0x0A

def carriageReturn : UInt8 := 0x0D

def Place.after (p : Place) (b : UInt8) : Place :=
  ⟨p.byte + 1, if b == lineFeed then p.line + 1 else p.line⟩

def endsRow (b : UInt8) : Bool := b == lineFeed || b == carriageReturn

inductive Position where
  /-- Before its first byte. -/
  | between
  /-- Before the first byte of a field. -/
  | start
  /-- In a field without quotes. -/
  | bare
  /-- In a quoted field. -/
  | quoted
  /-- After a quote in a quoted field. -/
  | closed
  deriving DecidableEq, Repr

/-- A reader of rows: the part of the row that has been read, last things first. -/
structure Reader where
  position : Position
  field : List UInt8
  fields : List (List UInt8)
  /-- Where the reading of the row began. -/
  opened : Place
  place : Place

namespace Reader

def new (opened place : Place) : Reader := ⟨.between, [], [], opened, place⟩

def take (r : Reader) (position : Position) (b : UInt8) : Reader :=
  { r with position := position, field := b :: r.field }

def endField (r : Reader) : Reader :=
  { r with position := .start, field := [], fields := r.field.reverse :: r.fields }

def row (r : Reader) : Row := ⟨(r.field.reverse :: r.fields).reverse, r.opened⟩

/-- A byte outside quotes, which leaves the reader at a position if it is an ordinary one. -/
def outside (r : Reader) (b : UInt8) : Option Row × Reader :=
  if b == comma then (none, r.endField)
  else if endsRow b then (some r.row, .new r.place r.place)
  else (none, r.take .bare b)

/-- Reads a byte, after which a row may be complete. The place is already the one after it. -/
def accept (r : Reader) (b : UInt8) : Option Row × Reader :=
  match r.position with
  | .between =>
    if endsRow b then (none, r)
    else if b == quote then (none, { r with position := .quoted })
    else r.outside b
  | .start =>
    if b == quote then (none, { r with position := .quoted }) else r.outside b
  | .bare => r.outside b
  | .quoted =>
    if b == quote then (none, { r with position := .closed }) else (none, r.take .quoted b)
  | .closed =>
    if b == quote then (none, r.take .quoted b) else r.outside b

/-- The rows of a text, after what has been read of the first. A row that the text breaks off ends
with it. -/
def rows (r : Reader) : List UInt8 → List Row
  | [] => if r.position = .between then [] else [r.row]
  | b :: rest =>
    let (row, r) := { r with place := r.place.after b }.accept b
    row.toList ++ r.rows rest

theorem rows_nil_of_between (opened place : Place) : (new opened place).rows [] = [] := rfl

end Reader

/-- The rows of a table. A byte order mark at its start is skipped, but counts as bytes. -/
def rows : List UInt8 → List Row
  | 0xEF :: 0xBB :: 0xBF :: rest => (Reader.new ⟨0, 1⟩ ⟨3, 1⟩).rows rest
  | bytes => (Reader.new ⟨0, 1⟩ ⟨0, 1⟩).rows bytes

end LocalGrid.Table
