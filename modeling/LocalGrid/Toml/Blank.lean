/-!
# Blanks, line ends and comments

What may stand between the parts of a TOML document. A reader takes the text that is left and gives
what it read and the rest, or nothing if the text does not have the form it reads.
-/

namespace LocalGrid.Toml

abbrev Reader (β : Type) := List Char → Option (β × List Char)

/-- A blank within a line. -/
def isSpace (c : Char) : Bool := c == ' ' || c == '\t'

/-- A character that may stand in a line: of the controls, only the tab is one. -/
def isInline (c : Char) : Bool := c == '\t' || (0x20 ≤ c.toNat && c.toNat != 0x7F)

def skipSpaces (cs : List Char) : List Char := cs.dropWhile isSpace

/-- The text after a line end: a line feed, which a carriage return may precede. -/
def afterLineEnd? : List Char → Option (List Char)
  | '\n' :: rest => some rest
  | '\r' :: '\n' :: rest => some rest
  | _ => none

/-- The text after a comment, if there is one; the line end is left. -/
def skipComment : List Char → List Char
  | '#' :: rest => rest.dropWhile isInline
  | cs => cs

/-- The text after what may follow a statement: blanks, a comment, and the line end or the end of
the document. -/
def afterStatement? (cs : List Char) : Option (List Char) :=
  match skipComment (skipSpaces cs) with
  | [] => some []
  | cs => afterLineEnd? cs

/-- The text after blanks, line ends and comments, of which there are at most `bound`. A comment has
to end with its line. -/
def skipLines : Nat → List Char → Option (List Char)
  | 0, cs => some cs
  | bound + 1, cs =>
    match skipSpaces cs with
    | '#' :: rest => (afterLineEnd? (rest.dropWhile isInline)).bind (skipLines bound)
    | '\n' :: rest => skipLines bound rest
    | '\r' :: rest => (afterLineEnd? ('\r' :: rest)).bind (skipLines bound)
    | cs => some cs

def skipBlanks (cs : List Char) : Option (List Char) := skipLines cs.length cs

theorem afterStatement?_nil : afterStatement? [] = some [] := rfl

end LocalGrid.Toml
