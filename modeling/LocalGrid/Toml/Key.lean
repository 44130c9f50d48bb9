import LocalGrid.Toml.Text

/-!
# Keys

A key is a path of parts with points between them, each bare or quoted, with blanks around it.
-/

namespace LocalGrid.Toml

def isBare (c : Char) : Bool := c.isAlphanum || c == '-' || c == '_'

def readPart : Reader String := fun cs =>
  match cs with
  | [] => none
  | c :: _ =>
    if c = doubleQuote ∨ c = singleQuote then readLineText cs
    else
      let name := cs.takeWhile isBare
      if name.isEmpty then none else some (String.ofList name, cs.dropWhile isBare)

def readParts : Nat → Reader (List String)
  | 0, _ => none
  | bound + 1, cs => do
    let (part, rest) ← readPart (skipSpaces cs)
    match skipSpaces rest with
    | '.' :: rest =>
      let (parts, rest) ← readParts bound rest
      pure (part :: parts, rest)
    | rest => pure ([part], rest)

def maxParts : Nat := 79

/-- Reads a key as the path to a table and a name in it. -/
def readKey : Reader (List String × String) := fun cs => do
  let (parts, rest) ← readParts maxParts cs
  let name ← parts.getLast?
  pure ((parts.dropLast, name), rest)

end LocalGrid.Toml
