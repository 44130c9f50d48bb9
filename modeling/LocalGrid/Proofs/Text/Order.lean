import LocalGrid.Proofs.Text.Ascii
import Mathlib.Data.String.Basic

/-!
# The order of texts

Texts are ordered by their characters, and their bytes are in the same order. The first byte of a
character tells how many bytes it has, and more of them stand for greater characters. The other
bytes are the digits of the character to the base 64, the highest one first.
-/

namespace LocalGrid.Text

/-! ## Numbers as bytes -/

theorem ofNat_lt_ofNat {m n : ℕ} (h : m < n) (hn : n < 256) : UInt8.ofNat m < UInt8.ofNat n := by
  rw [UInt8.lt_iff_toNat_lt, UInt8.toNat_ofNat', UInt8.toNat_ofNat',
    Nat.mod_eq_of_lt (h.trans hn), Nat.mod_eq_of_lt hn]
  exact h

/-- The last digits of a number to the base 64, as bytes that continue a character. -/
def continuation : ℕ → ℕ → List UInt8
  | 0, _ => []
  | k + 1, n => continuation k (n / 64) ++ [UInt8.ofNat (n % 64 + 128)]

/-- The bytes of two numbers with the same higher digits are in the order of the numbers, whatever
follows them. -/
theorem continuation_append_lt {k m n : ℕ} (hlead : m / 64 ^ k = n / 64 ^ k) (h : m < n)
    (s t : List UInt8) : continuation k m ++ s < continuation k n ++ t := by
  induction k generalizing m n s t with
  | zero =>
      have heq : m = n := by simpa using hlead
      omega
  | succ k ih =>
      rw [continuation, continuation, List.append_assoc, List.append_assoc]
      -- The last digit decides only if the higher ones are the same.
      rcases (Nat.div_le_div_right (c := 64) h.le).lt_or_eq with hlt | heq
      · refine ih ?_ hlt _ _
        rwa [Nat.div_div_eq_div_mul, Nat.div_div_eq_div_mul, ← Nat.pow_succ']
      · rw [heq]
        refine List.append_left_lt (List.cons_lt_cons_iff.2 (Or.inl ?_))
        exact ofNat_lt_ofNat (by omega) (by omega)

/-! ## Characters -/

def continuations (n : ℕ) : ℕ :=
  if n ≤ 127 then 0 else if n ≤ 2047 then 1 else if n ≤ 65535 then 2 else 3

/-- The least first byte of a character with so many bytes that continue it. -/
def leastLead : ℕ → ℕ
  | 0 => 0
  | 1 => 192
  | 2 => 224
  | _ => 240

def lead (n : ℕ) : ℕ := n / 64 ^ continuations n + leastLead (continuations n)

/-- There is no character from `0x110000` on. -/
theorem toNat_lt (c : Char) : c.toNat < 1114112 := by
  rcases c.valid with h | h
  · exact h.trans (by decide)
  · exact h.2

theorem utf8EncodeChar_eq (c : Char) : String.utf8EncodeChar c =
    UInt8.ofNat (lead c.toNat) :: continuation (continuations c.toNat) c.toNat := by
  have hc := toNat_lt c
  simp only [String.utf8EncodeChar, Char.toNat_val, lead, continuations]
  split_ifs <;>
    simp [leastLead, continuation, Nat.div_div_eq_div_mul, Nat.add_comm] <;>
    rw [Nat.mod_eq_of_lt (by omega)]

/-- A greater character does not have a smaller first byte, and where it has the same one, it has as
many bytes. -/
theorem lead_lt_or_eq {m n : ℕ} (h : m < n) :
    lead m < lead n ∨ lead m = lead n ∧ continuations m = continuations n ∧
      m / 64 ^ continuations n = n / 64 ^ continuations n := by
  rcases eq_or_ne (continuations m) (continuations n) with heq | hne
  · rw [lead, lead, heq]
    rcases (Nat.div_le_div_right (c := 64 ^ continuations n) h.le).lt_or_eq with hlt | heq'
    · exact Or.inl (Nat.add_lt_add_right hlt _)
    · exact Or.inr ⟨by rw [heq'], rfl, heq'⟩
  · left
    revert hne
    rw [lead, lead, continuations, continuations]
    split_ifs <;> simp only [leastLead] <;> omega

theorem lead_lt {n : ℕ} (h : n < 1114112) : lead n < 256 := by
  rw [lead, continuations]
  split_ifs <;> simp only [leastLead] <;> omega

/-- A smaller character goes before a greater one, whatever follows them. -/
theorem utf8EncodeChar_append_lt {c d : Char} (h : c < d) (s t : List UInt8) :
    String.utf8EncodeChar c ++ s < String.utf8EncodeChar d ++ t := by
  have hlt : c.toNat < d.toNat := h
  rw [utf8EncodeChar_eq, utf8EncodeChar_eq, List.cons_append, List.cons_append,
    List.cons_lt_cons_iff]
  rcases lead_lt_or_eq hlt with hlead | ⟨hlead, hcount, hdigit⟩
  · exact Or.inl (ofNat_lt_ofNat hlead (lead_lt (toNat_lt d)))
  · rw [hcount]
    exact Or.inr ⟨by rw [hlead], continuation_append_lt hdigit hlt s t⟩

/-! ## Texts -/

theorem flatMap_utf8EncodeChar_lt {a b : List Char} (h : a < b) :
    a.flatMap String.utf8EncodeChar < b.flatMap String.utf8EncodeChar := by
  induction h with
  | nil =>
      rw [List.flatMap_cons, utf8EncodeChar_eq]
      exact List.nil_lt_cons _ _
  | rel h => exact utf8EncodeChar_append_lt h _ _
  | cons _ ih => exact List.append_left_lt ih

theorem encode_lt_encode {a b : String} (h : a < b) : encode a < encode b := by
  rw [encode_eq_flatMap, encode_eq_flatMap]
  exact flatMap_utf8EncodeChar_lt (String.lt_iff_toList_lt.1 h)

/-- The order of texts is that of their bytes. -/
theorem encode_lt_encode_iff {a b : String} : encode a < encode b ↔ a < b := by
  refine ⟨fun h => ?_, encode_lt_encode⟩
  rcases lt_trichotomy a b with hlt | rfl | hgt
  · exact hlt
  · exact absurd h (List.lt_irrefl _)
  · exact absurd h (List.lt_asymm (encode_lt_encode hgt))

end LocalGrid.Text
