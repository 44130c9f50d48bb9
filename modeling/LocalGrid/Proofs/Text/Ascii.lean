import LocalGrid.Text.Blank
import LocalGrid.Text.Utf8
import Mathlib.Data.List.Basic

/-!
# ASCII texts

A text of ASCII characters is encoded with one byte for each character, and these bytes are decoded
to it.
-/

namespace LocalGrid.Text

/-! ## Encoding -/

theorem toList_loop (bytes : ByteArray) (i : ℕ) (done : List UInt8) :
    ByteArray.toList.loop bytes i done = done.reverse ++ bytes.data.toList.drop i := by
  induction h : bytes.size - i generalizing i done with
  | zero =>
      have hi : bytes.size ≤ i := by omega
      rw [ByteArray.toList.loop, if_neg (by omega), List.drop_of_length_le (by simpa using hi),
        List.append_nil]
  | succ n ih =>
      have hi : i < bytes.size := by omega
      have hlength : i < bytes.data.toList.length := by simpa using hi
      have hget : bytes.get! i = bytes.data.toList[i] := by simp [ByteArray.get!, hi]
      have hdrop : bytes.data.toList.drop i =
          bytes.data.toList[i] :: bytes.data.toList.drop (i + 1) :=
        List.drop_eq_getElem_cons hlength
      rw [ByteArray.toList.loop, if_pos hi, ih _ _ (by omega), List.reverse_cons, hget, hdrop,
        List.append_assoc, List.singleton_append]

theorem encode_eq_flatMap (text : String) :
    encode text = text.toList.flatMap String.utf8EncodeChar := by
  rw [encode, String.toUTF8, ← String.utf8Encode_toList, ByteArray.toList, toList_loop,
    List.utf8Encode, List.toList_data_toByteArray]
  rfl

theorem encode_append (a b : String) : encode (a ++ b) = encode a ++ encode b := by
  simp [encode_eq_flatMap]

theorem encode_join (texts : List String) :
    encode (String.join texts) = texts.flatMap encode := by
  rw [encode_eq_flatMap, String.toList_join, List.flatMap_assoc]
  exact List.flatMap_congr fun text _ => (encode_eq_flatMap text).symm

def byteOf (c : Char) : UInt8 := UInt8.ofNat c.toNat

def IsAscii (cs : List Char) : Prop := ∀ c ∈ cs, c.toNat < 128

theorem encode_of_isAscii {text : String} (h : IsAscii text.toList) :
    encode text = text.toList.map byteOf := by
  rw [encode_eq_flatMap, List.map_eq_flatMap]
  refine List.flatMap_congr fun c hc => ?_
  have hlt : c.val.toNat ≤ 127 := Nat.le_of_lt_succ (h c hc)
  simp only [String.utf8EncodeChar, if_pos hlt]
  rfl

/-! ## Decoding -/

theorem toNat_byteOf {c : Char} (hc : c.toNat < 128) : (byteOf c).toNat = c.toNat := by
  rw [byteOf, UInt8.toNat_ofNat']
  exact Nat.mod_eq_of_lt (by omega)

theorem decodeFrom_of_isAscii {cs : List Char} (h : IsAscii cs) (position : ℕ) :
    decodeFrom position (cs.map byteOf) = .ok cs := by
  induction cs generalizing position with
  | nil => rfl
  | cons c cs ih =>
      have hc : c.toNat < 128 := h c List.mem_cons_self
      have hlt : byteOf c < 0x80 := by
        rw [UInt8.lt_iff_toNat_lt, toNat_byteOf hc]
        exact hc
      rw [List.map_cons, decodeFrom.eq_def]
      simp only [if_pos hlt]
      rw [ih fun d hd => h d (List.mem_cons_of_mem _ hd),
        toNat_byteOf hc, Char.ofNat_toNat]
      rfl

/-! ## Blanks -/

/-- A text that neither starts nor ends with a blank. -/
structure IsTrimmed (cs : List Char) : Prop where
  head : ∀ c ∈ cs.head?, isBlank c = false
  last : ∀ c ∈ cs.getLast?, isBlank c = false

theorem trimStart_of_head {cs : List Char} (h : ∀ c ∈ cs.head?, isBlank c = false) :
    trimStart cs = cs := by
  cases cs with
  | nil => rfl
  | cons c cs => rw [trimStart, List.dropWhile_cons_of_neg (by simp [h c rfl])]

theorem trim_of_isTrimmed {cs : List Char} (h : IsTrimmed cs) : trim cs = cs := by
  rw [trim, trimStart_of_head h.head, trimStart_of_head (by rw [List.head?_reverse]; exact h.last),
    List.reverse_reverse]

end LocalGrid.Text
