import LocalGrid.Proofs.Calendar.Validity
import Mathlib.Tactic.Ring

/-!
# The steps of a clock

A step lies its index times the step length after the start. An index is read as a signed number,
so that the upper half of the words counts back from the start. Within a half of the words the
timestamps rise with the indices, and every timestamp of the upper half is before all timestamps of
the lower one.
-/

namespace LocalGrid.Clock

open Calendar

variable {c : Clock} {start s t : Timestamp} {d : StepDuration} {n i : ℕ} {stamps : List Timestamp}

/-! ## Distances -/

/-- A timestamp so many steps after another one. -/
structure IsStep (start : Timestamp) (d : StepDuration) (i : ℕ) (t : Timestamp) : Prop where
  seconds_eq : t.seconds = start.seconds + 60 * d.minutes * i
  nanos_eq : t.nanos = start.nanos
  isValid : t.IsValid

/-- Consecutive steps are one step apart. -/
theorem IsStep.one (hs : IsStep start d i s) (ht : IsStep start d (i + 1) t) : IsStep s d 1 t where
  seconds_eq := by
    rw [ht.seconds_eq, hs.seconds_eq]
    push_cast
    ring
  nanos_eq := ht.nanos_eq.trans hs.nanos_eq.symm
  isValid := ht.isValid

theorem timestamp?_eq (hi : i < 2 ^ 63) :
    (new start d n).timestamp? (UInt64.ofNat i) = start.addSeconds? (60 * d.minutes * i) := by
  rw [timestamp?, new, offset_ofNat _ hi]
  congr 1
  ring

theorem isStep_of_addSeconds? (hstart : start.IsValid) (hleap : start.isLeapSecond = false)
    (h : start.addSeconds? (60 * d.minutes * i) = some t) : IsStep start d i t := by
  obtain ⟨hseconds, hnanos⟩ := hstart.moved hleap h
  exact ⟨hseconds, hnanos, hstart.addSeconds? h⟩

/-- The index of a step in the calendar is far from the end of the words. -/
theorem index_lt (hstart : start.IsValid) (hleap : start.isLeapSecond = false)
    (h : start.addSeconds? (60 * d.minutes * i) = some t) : i < 2 ^ 40 := by
  have hlt := hstart.lt_of_addSeconds? hleap h
  cases d <;> simp only [StepDuration.minutes] at hlt <;> omega

/-- The number of steps in the calendar is far from the end of the words. -/
theorem length_le (hstart : start.IsValid) (hleap : start.isLeapSecond = false)
    (h : (new start d n).timestamps? = some stamps) : n ≤ 2 ^ 40 := by
  by_contra hnot
  rw [not_le] at hnot
  obtain ⟨u, hu⟩ : ∃ u, stamps[2 ^ 40]? = some u :=
    ⟨_, List.getElem?_eq_getElem ((length_timestamps? h).symm ▸ hnot)⟩
  rw [getElem?_timestamps? h hnot, timestamp?_eq (by decide)] at hu
  exact (index_lt hstart hleap hu).false

theorem isStep_of_getElem? (hstart : start.IsValid) (hleap : start.isLeapSecond = false)
    (h : (new start d n).timestamps? = some stamps) (hi : stamps[i]? = some t) :
    IsStep start d i t := by
  have hlength : stamps.length = n := length_timestamps? h
  have hlt : i < n := hlength ▸ (List.getElem?_eq_some_iff.1 hi).1
  have hle := length_le hstart hleap h
  rw [getElem?_timestamps? h hlt, timestamp?_eq (by omega)] at hi
  exact isStep_of_addSeconds? hstart hleap hi

/-- A step has no timestamp where the product of its index and the step length is no signed word:
the calendar ends long before. -/
theorem timestamp?_eq_none_of_overflow (hstart : c.start.InCalendar) {i : UInt64}
    (hoverflow : offset c.duration i < -2 ^ 63 ∨ 2 ^ 63 ≤ offset c.duration i) :
    c.timestamp? i = none := by
  have hfirst : firstDay.number = -95745824 := by decide
  have hlast : lastDay.number = 95745704 := by decide
  have hrange := hstart.inRange
  have hsecond := hstart.second_lt
  simp only [Day.inRange, hfirst, hlast, Bool.and_eq_true, decide_eq_true_eq,
    Timestamp.secondsPerDay] at hrange hsecond
  rw [timestamp?, Timestamp.addSeconds?, if_neg (by omega), if_neg]
  simp only [Day.inRange, hfirst, hlast, Bool.and_eq_true, decide_eq_true_eq,
    Timestamp.secondsPerDay]
  split_ifs <;> omega

/-! ## Order -/

/-- A word of the upper half is read as a negative number. -/
theorem toInt_toInt64 (i : UInt64) :
    i.toInt64.toInt = if i.toNat < 2 ^ 63 then (i.toNat : ℤ) else i.toNat - 2 ^ 64 := by
  have hword : i.toBitVec.toNat = i.toNat := rfl
  change i.toBitVec.toInt = _
  rw [BitVec.toInt_eq_toNat_cond, hword]
  split_ifs <;> omega

/-- The timestamps of a clock are in the order of its indices, read as signed numbers. -/
theorem isBefore_iff_toInt64 (hstart : c.start.IsValid) (hleap : c.start.isLeapSecond = false)
    {i j : UInt64} (hs : c.timestamp? i = some s) (ht : c.timestamp? j = some t) :
    s.isBefore t = true ↔ i.toInt64.toInt < j.toInt64.toInt := by
  obtain ⟨hsecond, hnanos⟩ := hstart.moved hleap hs
  obtain ⟨hsecond', hnanos'⟩ := hstart.moved hleap ht
  rw [(hstart.addSeconds? hs).isBefore_iff (hstart.addSeconds? ht) (hnanos.trans hnanos'.symm),
    hsecond, hsecond', offset, offset]
  cases c.duration <;> simp only [StepDuration.minutes] <;> omega

/-- The timestamp of a greater index is later, exactly if both indices lie in the same half of the
words; if they do not, it is earlier. -/
theorem timestamps_rise_in_halves (hstart : c.start.IsValid)
    (hleap : c.start.isLeapSecond = false) {i j : UInt64} (hij : i < j)
    (hs : c.timestamp? i = some s) (ht : c.timestamp? j = some t) :
    (s.isBefore t = true ↔ (i.toNat < 2 ^ 63 ↔ j.toNat < 2 ^ 63)) ∧
      (t.isBefore s = true ↔ i.toNat < 2 ^ 63 ∧ 2 ^ 63 ≤ j.toNat) := by
  have hlt := UInt64.lt_iff_toNat_lt.1 hij
  have hi := i.toNat_lt
  have hj := j.toNat_lt
  rw [isBefore_iff_toInt64 hstart hleap hs ht, isBefore_iff_toInt64 hstart hleap ht hs,
    toInt_toInt64, toInt_toInt64]
  constructor <;> split_ifs <;> omega

/-- The step that follows one day after the first `2 ^ 32` quarters of an hour. -/
theorem timestamps_rise_in_halves_far : ∃ s t,
    (⟨⟨739191⟩, 0, 0⟩ : Timestamp).IsValid ∧
      (new ⟨⟨739191⟩, 0, 0⟩ .quarterHourly 0).timestamp? 96 = some s ∧
      (new ⟨⟨739191⟩, 0, 0⟩ .quarterHourly 0).timestamp? 4294967392 = some t ∧
      t = ⟨⟨45478434⟩, 57600, 0⟩ ∧ s.isBefore t = true := by
  have hstart : (⟨⟨739191⟩, 0, 0⟩ : Timestamp).IsValid :=
    ⟨⟨by decide, by decide, by decide⟩, by decide⟩
  have hs : (new ⟨⟨739191⟩, 0, 0⟩ .quarterHourly 0).timestamp? 96 =
      some ⟨⟨739192⟩, 0, 0⟩ := by decide +kernel
  have ht : (new ⟨⟨739191⟩, 0, 0⟩ .quarterHourly 0).timestamp? 4294967392 =
      some ⟨⟨45478434⟩, 57600, 0⟩ := by decide +kernel
  have horder := (timestamps_rise_in_halves hstart (by decide) (by decide) hs ht).1
  exact ⟨_, _, hstart, hs, ht, rfl, horder.2 (by decide)⟩

/-- The last index of the words has the timestamp one step before the start. -/
theorem last_index_before_first : ∃ s t,
    (⟨⟨739191⟩, 0, 0⟩ : Timestamp).IsValid ∧
      (⟨⟨739191⟩, 0, 0⟩ : Timestamp).isLeapSecond = false ∧
      (0 : UInt64) < 18446744073709551615 ∧
      (new ⟨⟨739191⟩, 0, 0⟩ .hourly 0).timestamp? 0 = some s ∧
      (new ⟨⟨739191⟩, 0, 0⟩ .hourly 0).timestamp? 18446744073709551615 = some t ∧
      t = ⟨⟨739190⟩, 82800, 0⟩ ∧ s.isBefore t = false ∧ t.isBefore s = true :=
  ⟨⟨⟨739191⟩, 0, 0⟩, ⟨⟨739190⟩, 82800, 0⟩, ⟨⟨by decide, by decide, by decide⟩, by decide⟩,
    by decide +kernel⟩

end LocalGrid.Clock
