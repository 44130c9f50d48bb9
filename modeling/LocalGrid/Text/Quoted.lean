import LocalGrid.Text.Glyphless

/-!
# Quoted text

A text in quotes on one line, as diagnostics show it. Quotes, backslashes and line ends have escapes
of two characters; whatever else has no glyph is named by its number.
-/

namespace LocalGrid.Text

def numbered (c : Char) : List Char :=
  ['\\', 'u', '\x7b'] ++ Nat.toDigits 16 c.toNat ++ ['\x7d']

def quoteChar (c : Char) : List Char :=
  match c with
  | '\x00' => ['\\', '0']
  | '\t' => ['\\', 't']
  | '\r' => ['\\', 'r']
  | '\n' => ['\\', 'n']
  | '"' => ['\\', '"']
  | '\\' => ['\\', '\\']
  | c => if c.toNat < 0x20 || isGlyphless c then numbered c else [c]

def quoted (text : String) : String :=
  "\"" ++ String.ofList (text.toList.flatMap quoteChar) ++ "\""

end LocalGrid.Text
