import LocalGrid.Decimal.Layout

/-!
# Documents

Structured output: records of named parts and lists, in the order they are given, over leaves that
are already texts. A document is written either on one line or with one part per line.
-/

namespace LocalGrid.Export

inductive Document where
  | leaf (text : String)
  | list (items : List Document)
  | record (parts : List (String × Document))

namespace Document

/-- The leaf for a value that is absent or has no number. -/
def null : Document := .leaf "null"

def ofBool (b : Bool) : Document := .leaf (if b then "true" else "false")

def ofNat (n : Nat) : Document := .leaf (Nat.repr n)

/-- The leaf of a number; values that are no finite number have none. -/
def ofSingle (x : Float32) : Document :=
  if x.isFinite then .leaf (Decimal.Layout.document.single x) else null

/-- The leaf of a text without quotes, backslashes or control characters. -/
def ofPlainText (text : String) : Document := .leaf ("\"" ++ text ++ "\"")

def ofOption {β : Type} (write : β → Document) : Option β → Document
  | some x => write x
  | none => null

def keyChars (key : String) : List Char := ['"'] ++ key.toList ++ ['"', ':']

mutual

def compactChars : Document → List Char
  | .leaf text => text.toList
  | .list items => '[' :: compactItems items ++ [']']
  | .record parts => '\x7b' :: compactParts parts ++ ['\x7d']

def compactItems : List Document → List Char
  | [] => []
  | [item] => item.compactChars
  | item :: rest => item.compactChars ++ ',' :: compactItems rest

def compactParts : List (String × Document) → List Char
  | [] => []
  | [(key, part)] => keyChars key ++ part.compactChars
  | (key, part) :: rest => keyChars key ++ part.compactChars ++ ',' :: compactParts rest

end

def newLine (depth : Nat) : List Char := '\n' :: List.replicate (2 * depth) ' '

mutual

def prettyChars (depth : Nat) : Document → List Char
  | .leaf text => text.toList
  | .list [] => ['[', ']']
  | .list (item :: rest) =>
    '[' :: newLine (depth + 1) ++ item.prettyChars (depth + 1)
      ++ prettyItems (depth + 1) rest ++ newLine depth ++ [']']
  | .record [] => ['\x7b', '\x7d']
  | .record ((key, part) :: rest) =>
    '\x7b' :: newLine (depth + 1) ++ keyChars key ++ ' ' :: part.prettyChars (depth + 1)
      ++ prettyParts (depth + 1) rest ++ newLine depth ++ ['\x7d']

def prettyItems (depth : Nat) : List Document → List Char
  | [] => []
  | item :: rest =>
    ',' :: newLine depth ++ item.prettyChars depth ++ prettyItems depth rest

def prettyParts (depth : Nat) : List (String × Document) → List Char
  | [] => []
  | (key, part) :: rest =>
    ',' :: newLine depth ++ keyChars key ++ ' ' :: part.prettyChars depth
      ++ prettyParts depth rest

end

def compact (d : Document) : String := String.ofList d.compactChars

def pretty (d : Document) : String := String.ofList (d.prettyChars 0)

end Document

end LocalGrid.Export
