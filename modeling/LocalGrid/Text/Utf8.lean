/-!
# Encoded text

Bytes as text in the usual variable-length encoding. Only the shortest form of a character is
accepted, and no surrogate; a text that is not well formed is reported with the position of its
first wrong sequence.
-/

namespace LocalGrid.Text

def isTail (b : UInt8) : Bool := 0x80 ≤ b && b ≤ 0xBF

def tailBits (b : UInt8) : Nat := b.toNat - 0x80

def pair? (a b : UInt8) : Option Char :=
  if 0xC2 ≤ a && a ≤ 0xDF && isTail b then
    some (.ofNat ((a.toNat - 0xC0) * 64 + tailBits b))
  else none

def triple? (a b c : UInt8) : Option Char :=
  let least : UInt8 := if a == 0xE0 then 0xA0 else 0x80
  let greatest : UInt8 := if a == 0xED then 0x9F else 0xBF
  if 0xE0 ≤ a && a ≤ 0xEF && least ≤ b && b ≤ greatest && isTail c then
    some (.ofNat (((a.toNat - 0xE0) * 64 + tailBits b) * 64 + tailBits c))
  else none

def quadruple? (a b c d : UInt8) : Option Char :=
  let least : UInt8 := if a == 0xF0 then 0x90 else 0x80
  let greatest : UInt8 := if a == 0xF4 then 0x8F else 0xBF
  if 0xF0 ≤ a && a ≤ 0xF4 && least ≤ b && b ≤ greatest && isTail c && isTail d then
    some (.ofNat ((((a.toNat - 0xF0) * 64 + tailBits b) * 64 + tailBits c) * 64 + tailBits d))
  else none

/-- The characters of a text whose first byte has a given position, or the position of the first
wrong sequence. -/
def decodeFrom (position : Nat) : List UInt8 → Except Nat (List Char)
  | [] => .ok []
  | a :: bytes =>
    if a < 0x80 then (decodeFrom (position + 1) bytes).map (Char.ofNat a.toNat :: ·)
    else match bytes with
      | [] => .error position
      | b :: bytes => match pair? a b with
        | some ch => (decodeFrom (position + 2) bytes).map (ch :: ·)
        | none => match bytes with
          | [] => .error position
          | c :: bytes => match triple? a b c with
            | some ch => (decodeFrom (position + 3) bytes).map (ch :: ·)
            | none => match bytes with
              | [] => .error position
              | d :: bytes => match quadruple? a b c d with
                | some ch => (decodeFrom (position + 4) bytes).map (ch :: ·)
                | none => .error position

/-- The text of bytes, or the position of the first wrong sequence. -/
def decode (bytes : List UInt8) : Except Nat String :=
  (decodeFrom 0 bytes).map String.ofList

def encode (text : String) : List UInt8 := text.toUTF8.toList

theorem decodeFrom_nil (position : Nat) : decodeFrom position [] = .ok [] := rfl

end LocalGrid.Text
