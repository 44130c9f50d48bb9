import LocalGrid.Proofs.Calendar.Date
import LocalGrid.Proofs.Calendar.Validity
import LocalGrid.Proofs.Decimal.Reading
import LocalGrid.Proofs.Text.Ascii

/-!
# Reading timestamps that were written

The text of a valid timestamp is read to the timestamp, with its fraction and its leap second. So no
two valid timestamps have the same text. A leap second within a minute is written like the second
after it, and it is the only timestamp that shares its text with another one.
-/

namespace LocalGrid.Calendar

open Decimal

/-! ## Padded numbers -/

theorem isDigits_padded (width n : ℕ) : IsDigits (padded width n) :=
  isDigits_zeros_append _ n

theorem padded_ne_nil (width n : ℕ) : padded width n ≠ [] :=
  List.append_ne_nil_of_right_ne_nil _ (digits_ne_nil n)

theorem valueOf_padded (width n : ℕ) : valueOf (padded width n) = n :=
  (valueOf_zeros_append _ _).trans (valueOf_digits n)

theorem length_padded {width n : ℕ} (hwidth : 0 < width) (hn : n < 10 ^ width) :
    (padded width n).length = width := by
  have hlength := (Nat.length_toDigits_le_iff (b := 10) (by decide) hwidth).2 hn
  rw [padded, List.length_append, List.length_replicate]
  omega

/-! ## Parts -/

variable {n low high : ℕ}

theorem isMark_singleton (mark : Char) : IsMark mark [mark] := .after isBlanks_nil

theorem isField_padded (hlow : low ≤ n) (hhigh : n ≤ high) (hn : n < 100) :
    IsField low high (padded 2 n) n := by
  have hvalue := valueOf_padded 2 n
  have hfield := @IsField.after low high [] (padded 2 n) isBlanks_nil
    (isDigits_padded 2 n) (padded_ne_nil 2 n) (length_padded two_pos hn).le
    (hvalue.symm ▸ hlow) (hvalue.symm ▸ hhigh)
  rwa [hvalue] at hfield

theorem isYear_yearText (y : ℤ) : IsYear (yearText y) y := by
  have hdigits := isDigits_padded 4
  have hne := padded_ne_nil 4
  unfold yearText
  split_ifs with hfour hnegative
  · have hlength := length_padded (n := y.toNat) four_pos (by omega)
    have hyear := @IsYear.unsigned [] _ isBlanks_nil (hdigits y.toNat) (hne _) hlength.le
    rwa [valueOf_padded, Int.toNat_of_nonneg hfour.1] at hyear
  · have hyear := @IsYear.minus [] _ isBlanks_nil (hdigits y.natAbs) (hne _)
    have hcast : -(y.natAbs : ℤ) = y := by omega
    rwa [valueOf_padded, hcast] at hyear
  · have hyear := @IsYear.plus [] _ isBlanks_nil (hdigits y.natAbs) (hne _)
    have hcast : (y.natAbs : ℤ) = y := by omega
    rwa [valueOf_padded, hcast] at hyear

theorem isFraction_padded (count n : ℕ) (hcount : 0 < count) (hcount' : count ≤ 9)
    (hn : n < 10 ^ count) : IsFraction ('.' :: padded count n) (n * 10 ^ (9 - count)) := by
  have hlength := length_padded hcount hn
  have hfraction := IsFraction.point (isDigits_padded count n) (padded_ne_nil count n)
  rwa [List.take_of_length_le (hlength.le.trans hcount'), valueOf_padded, hlength] at hfraction

theorem isFraction_fractionChars (hn : n < 1000000000) :
    IsFraction (Timestamp.fractionChars n) n := by
  unfold Timestamp.fractionChars
  split_ifs with hzero hmillis hmicros
  · rw [hzero]
    exact .none
  · have hmillions : n / 1000000 * 10 ^ (9 - 3) = n :=
      Nat.div_mul_cancel (Nat.dvd_of_mod_eq_zero hmillis)
    have hfraction := isFraction_padded 3 (n / 1000000) (by decide) (by decide) (by omega)
    rwa [hmillions] at hfraction
  · have hthousands : n / 1000 * 10 ^ (9 - 6) = n :=
      Nat.div_mul_cancel (Nat.dvd_of_mod_eq_zero hmicros)
    have hfraction := isFraction_padded 6 (n / 1000) (by decide) (by decide) (by omega)
    rwa [hthousands] at hfraction
  · have hfraction := isFraction_padded 9 n (by decide) le_rfl hn
    rwa [Nat.sub_self, Nat.pow_zero, Nat.mul_one] at hfraction

namespace Timestamp

variable {t u : Timestamp}

/-- A valid timestamp is written in one of its texts. -/
theorem IsValid.isText (ht : t.IsValid) : IsText t.text.toList t := by
  have hsecond : t.second < 86400 := ht.second_lt
  have hnanos := ht.nanos_lt
  have hend (h : 1000000000 ≤ t.nanos) : t.second % 60 = 59 := ht.minute_end (decide_eq_true h)
  have hexists := t.day.exists_date
  have hrange : t.day.date.toDay.inRange = true := by rw [t.day.toDay_date]; exact ht.inRange
  have hdate := hexists
  simp only [Date.exists, Bool.and_eq_true, decide_eq_true_eq] at hdate
  obtain ⟨⟨⟨hmonth, hmonth'⟩, hday⟩, hlength⟩ := hdate
  have hday' : t.day.date.day ≤ 31 := hlength.trans (by unfold daysInMonth; split_ifs <;> decide)
  set leap := t.nanos / 1000000000 with hleap
  have hhour : t.hour ≤ 23 := by
    unfold hour
    omega
  have hminute : t.minute ≤ 59 := by
    unfold minute
    omega
  have htext := IsText.parts (isYear_yearText t.day.date.year) (isMark_singleton '-')
    (isField_padded hmonth hmonth' (by omega)) (isMark_singleton '-')
    (isField_padded hday hday' (by omega)) (isMark_singleton 'T')
    (isField_padded (Nat.zero_le _) hhour (by omega)) (isMark_singleton ':')
    (isField_padded (Nat.zero_le _) hminute (by omega)) (isMark_singleton ':')
    (isField_padded (n := t.second % 60 + leap) (Nat.zero_le _) (by omega) (by omega))
    (isFraction_fractionChars (n := t.nanos - leap * 1000000000) (by omega))
    isBlanks_nil hexists hrange
  have hclock : ofClock t.day.date t.hour t.minute (t.second % 60 + leap)
      (t.nanos - leap * 1000000000) = t := by
    unfold ofClock
    rw [t.day.toDay_date]
    split_ifs with hsixty
    · have hclock : t.hour * 3600 + t.minute * 60 + 59 = t.second := by
        unfold hour minute
        omega
      have hleap : t.nanos - leap * 1000000000 + 1000000000 = t.nanos := by omega
      rw [hclock, hleap]
    · have hnone : leap = 0 := by omega
      have hclock : t.hour * 3600 + t.minute * 60 + (t.second % 60 + leap) = t.second := by
        unfold hour minute
        omega
      rw [hclock, hnone, Nat.zero_mul, Nat.sub_zero]
  rw [hclock] at htext
  simpa [text, Date.chars, timeChars, minuteChars] using htext

/-- A valid timestamp is read as it was written. -/
theorem IsValid.read_text (ht : t.IsValid) : read t.text = .ok t :=
  read_eq_ok_iff.2 ht.isText

/-- No two valid timestamps have the same text. -/
theorem IsValid.text_inj (ht : t.IsValid) (hu : u.IsValid) (h : t.text = u.text) : t = u := by
  have hread := ht.read_text
  rw [h, hu.read_text] at hread
  exact (Except.ok.inj hread).symm

/-! ## Leap seconds within a minute -/

/-- The timestamp without a leap second within a minute, which gives way to the second after it. -/
def settled (t : Timestamp) : Timestamp :=
  if t.isLeapSecond = true ∧ t.second % 60 ≠ 59 then
    { t with second := t.second + 1, nanos := t.nanos - 1000000000 }
  else t

theorem InCalendar.isValid_settled (ht : t.InCalendar) : t.settled.IsValid := by
  have hsecond : t.second < 86400 := ht.second_lt
  have hnanos := ht.nanos_lt
  unfold settled
  split_ifs with h
  · refine ⟨⟨ht.inRange, ?_, ?_⟩, fun hleap => ?_⟩
    · simp only [secondsPerDay]
      omega
    · dsimp only
      omega
    · have hlate : 1000000000 ≤ t.nanos - 1000000000 := of_decide_eq_true hleap
      omega
  · exact ⟨ht, fun hleap => by simpa [hleap] using h⟩

theorem InCalendar.text_settled (ht : t.InCalendar) : t.settled.text = t.text := by
  have hnanos := ht.nanos_lt
  unfold settled
  split_ifs with h
  · have hlate : 1000000000 ≤ t.nanos := of_decide_eq_true h.1
    have hinside := h.2
    have hleap : t.nanos / 1000000000 = 1 := by omega
    have hnone : (t.nanos - 1000000000) / 1000000000 = 0 := by omega
    have hhour : (t.second + 1) / 3600 = t.second / 3600 := by omega
    have hminute : (t.second + 1) / 60 % 60 = t.second / 60 % 60 := by omega
    have hsecond : (t.second + 1) % 60 = t.second % 60 + 1 := by omega
    simp only [text, timeChars, minuteChars, hour, minute, hleap, hnone, hhour, hminute, hsecond,
      Nat.add_zero, Nat.zero_mul, Nat.one_mul, Nat.sub_zero]
  · rfl

/-- Two timestamps have the same text exactly if they are the same but for leap seconds within a
minute. -/
theorem InCalendar.text_eq_iff (ht : t.InCalendar) (hu : u.InCalendar) :
    t.text = u.text ↔ t.settled = u.settled := by
  rw [← ht.text_settled, ← hu.text_settled]
  exact ⟨ht.isValid_settled.text_inj hu.isValid_settled, congrArg text⟩

end Timestamp

end LocalGrid.Calendar
