/-!
# TOML values

The values of a TOML document. Tables and arrays of tables are built up over several lines, and
which of those lines may extend a table depends on how the table came to be; so a table keeps its
origin.
-/

namespace LocalGrid.Toml

inductive Origin where
  /-- Written between braces; complete. -/
  | literal
  /-- Opened by a header, or the document itself. -/
  | header
  /-- Implied by the header of a table below it. -/
  | implied
  /-- Implied by a dotted key. -/
  | dotted
  deriving DecidableEq, Repr

/-- A value. Entries keep the order in which they were written. -/
inductive Value where
  | text (s : String)
  | integer (n : Int)
  | number (x : Float)
  | boolean (b : Bool)
  /-- A date, a time or both. No setting is one, so its parts are not kept. -/
  | moment
  | array (items : List Value)
  | table (origin : Origin) (entries : List (String × Value))
  /-- The tables under headers in double brackets, the last of which may still be extended. -/
  | tables (items : List (List (String × Value)))

abbrev Entries := List (String × Value)

end LocalGrid.Toml
