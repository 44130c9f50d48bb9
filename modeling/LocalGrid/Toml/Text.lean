import LocalGrid.Toml.Blank

/-!
# Strings

A string is basic (in double quotes, with escapes) or literal (in single quotes, without), and each
kind is written on one line or between three quotes over several. Reading has two steps: the quotes
are matched, which gives the raw text, and the raw text is checked and its escapes are replaced.
-/

namespace LocalGrid.Toml

def doubleQuote : Char := '"'

def singleQuote : Char := '\x27'

/-- The raw text up to a quote. After a backslash, if it escapes, a quote is part of the text. -/
def takeQuoted (quote : Char) (escapes : Bool) : List Char → Option (List Char × List Char)
  | [] => none
  | [c] => if c = quote then some ([], []) else none
  | c :: d :: rest =>
    if c = quote then some ([], d :: rest)
    else if escapes && c == '\\' then
      (takeQuoted quote escapes rest).map fun (raw, rest) => (c :: d :: raw, rest)
    else (takeQuoted quote escapes (d :: rest)).map fun (raw, rest) => (c :: raw, rest)

/-- The raw text up to three quotes. Up to two more quotes belong to the text. -/
def takeTripleQuoted (quote : Char) (escapes : Bool) : List Char → Option (List Char × List Char)
  | [] => none
  | [_] => none
  | c :: d :: rest =>
    if c = quote ∧ d = quote ∧ rest.head? = some quote then
      let after := rest.drop 1
      let extra := (after.takeWhile (· == quote)).take 2
      some (extra, after.drop extra.length)
    else if escapes && c == '\\' then
      (takeTripleQuoted quote escapes rest).map fun (raw, rest) => (c :: d :: raw, rest)
    else (takeTripleQuoted quote escapes (d :: rest)).map fun (raw, rest) => (c :: raw, rest)

def hexDigit? (c : Char) : Option Nat :=
  if c.isDigit then some (c.toNat - 48)
  else if 'a' ≤ c ∧ c ≤ 'f' then some (c.toNat - 87)
  else if 'A' ≤ c ∧ c ≤ 'F' then some (c.toNat - 55)
  else none

def numbered? (digits : List Char) : Option Char := do
  let values ← digits.mapM hexDigit?
  let n := values.foldl (fun n d => 16 * n + d) 0
  if n.isValidChar then some (.ofNat n) else none

def escaped? : Char → Option Char
  | 'b' => some '\x08'
  | 't' => some '\t'
  | 'n' => some '\n'
  | 'f' => some '\x0c'
  | 'r' => some '\r'
  | '"' => some '"'
  | '\\' => some '\\'
  | _ => none

/-- Whether only blanks are left of a line that does end. -/
def isLineRest (cs : List Char) : Bool := (afterLineEnd? (skipSpaces cs)).isSome

/-- The text of a raw string with escapes, on one line or with uniform line ends over several. Over
several lines, a backslash at the end of a line takes all blanks and line ends after it away; the
second flag tells whether such a run is being taken. -/
def unescape (lines : Bool) : Bool → List Char → Option (List Char)
  | _, [] => some []
  | _, '\\' :: 'u' :: a :: b :: c :: d :: rest => do
    let ch ← numbered? [a, b, c, d]
    (unescape lines false rest).map (ch :: ·)
  | _, '\\' :: 'U' :: a :: b :: c :: d :: e :: f :: g :: h :: rest => do
    let ch ← numbered? [a, b, c, d, e, f, g, h]
    (unescape lines false rest).map (ch :: ·)
  | _, '\\' :: c :: rest =>
    if lines && isLineRest (c :: rest) then unescape lines true (c :: rest)
    else do
      let ch ← escaped? c
      (unescape lines false rest).map (ch :: ·)
  | taking, c :: rest =>
    if taking && (isSpace c || c == '\n') then unescape lines true rest
    else if c != '\\' && (isInline c || lines && c == '\n') then
      (unescape lines false rest).map (c :: ·)
    else none

def unescapeLine (raw : List Char) : Option (List Char) := unescape false false raw

/-- A raw text of several lines with uniform line ends, if all its characters are allowed. -/
def uniformLines : List Char → Option (List Char)
  | [] => some []
  | '\r' :: '\n' :: rest => (uniformLines rest).map ('\n' :: ·)
  | c :: rest =>
    if isInline c || c == '\n' then (uniformLines rest).map (c :: ·) else none

def unescapeLines (raw : List Char) : Option (List Char) :=
  (uniformLines raw).bind (unescape true false)

/-- The text after the line end that may follow three opening quotes. -/
def dropFirstLineEnd (cs : List Char) : List Char := (afterLineEnd? cs).getD cs

def literalLine (raw : List Char) : Option (List Char) :=
  if raw.all isInline then some raw else none

def ofRaw (meaning : List Char → Option (List Char)) :
    Option (List Char × List Char) → Option (String × List Char)
  | some (raw, rest) => (meaning raw).map fun cs => (String.ofList cs, rest)
  | none => none

def readLineText : Reader String
  | c :: rest =>
    if c = doubleQuote then ofRaw unescapeLine (takeQuoted doubleQuote true rest)
    else if c = singleQuote then ofRaw literalLine (takeQuoted singleQuote false rest)
    else none
  | [] => none

def opensTriple (quote : Char) (cs : List Char) : Bool := cs.take 3 == [quote, quote, quote]

def readText : Reader String := fun cs =>
  if opensTriple doubleQuote cs then
    ofRaw unescapeLines (takeTripleQuoted doubleQuote true (dropFirstLineEnd (cs.drop 3)))
  else if opensTriple singleQuote cs then
    ofRaw uniformLines (takeTripleQuoted singleQuote false (dropFirstLineEnd (cs.drop 3)))
  else readLineText cs

end LocalGrid.Toml
