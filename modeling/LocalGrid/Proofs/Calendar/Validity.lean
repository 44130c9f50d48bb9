import LocalGrid.Proofs.Calendar.Grammar
import LocalGrid.Proofs.Quarters
import Mathlib.Tactic.Positivity

/-!
# Valid timestamps

Every timestamp has a day that is reached and a second of the day. It is valid if, in addition, a
leap second follows the last second of a minute. What is read is valid, and so is everything that is
reached from a valid timestamp.
-/

namespace LocalGrid

namespace Calendar

open Decimal

/-! ## Fractions -/

theorem foldl_digits_lt {ds : List Char} {n : ℕ} (h : IsDigits ds) :
    ds.foldl (fun v c => 10 * v + (c.toNat - 48)) n < (n + 1) * 10 ^ ds.length := by
  induction ds generalizing n with
  | nil => simp
  | cons c ds ih =>
      have hc : c.toNat - 48 ≤ 9 := by
        have hhigh : c.toNat ≤ 57 := (Char.isDigit_iff_toNat.1 (h c List.mem_cons_self)).2
        omega
      have hds := ih (n := 10 * n + (c.toNat - 48)) fun d hd => h d (List.mem_cons_of_mem _ hd)
      rw [List.foldl_cons, List.length_cons, Nat.pow_succ']
      refine hds.trans_le ?_
      rw [← Nat.mul_assoc]
      exact Nat.mul_le_mul_right _ (by omega)

theorem valueOf_lt {ds : List Char} (h : IsDigits ds) : valueOf ds < 10 ^ ds.length :=
  (foldl_digits_lt h).trans_eq (by rw [Nat.zero_add, Nat.one_mul])

theorem IsFraction.lt {text : List Char} {n : ℕ} (h : IsFraction text n) : n < 1000000000 := by
  cases h with
  | none => decide
  | @point ds hds hne =>
      have hvalue := valueOf_lt (isDigits_take hds 9)
      rw [List.length_take] at hvalue
      calc valueOf (ds.take 9) * 10 ^ (9 - ds.length)
          < 10 ^ min 9 ds.length * 10 ^ (9 - ds.length) :=
            Nat.mul_lt_mul_of_pos_right hvalue (by positivity)
        _ = 10 ^ 9 := by
            rw [← Nat.pow_add]
            congr 1
            omega

/-! ## Timestamps -/

namespace Timestamp

variable {t u : Timestamp} {span : ℤ}

/-- A second of a day that is reached, which may have a leap second after it. -/
structure InCalendar (t : Timestamp) : Prop where
  inRange : t.day.inRange = true
  second_lt : t.second < secondsPerDay
  nanos_lt : t.nanos < 2000000000

/-- Only the last second of a minute has a leap second. -/
structure IsValid (t : Timestamp) : Prop extends t.InCalendar where
  minute_end : t.isLeapSecond = true → t.second % 60 = 59

theorem isLeapSecond_eq_false_iff : t.isLeapSecond = false ↔ t.nanos < 1000000000 := by
  rw [isLeapSecond, decide_eq_false_iff_not, Nat.not_le]

theorem IsText.isValid {cs : List Char} (h : IsText cs t) : t.IsValid := by
  obtain ⟨-, -, -, -, -, -, hhour, -, hminute, -, hsecond, hfraction, -, -, hrange⟩ := h
  have hhour' := hhour.bounds.2
  have hminute' := hminute.bounds.2
  have hsecond' := hsecond.bounds.2
  have hnanos := hfraction.lt
  unfold ofClock
  split_ifs with hleap
  · refine ⟨⟨hrange, ?_, ?_⟩, fun _ => ?_⟩
    · simp only [secondsPerDay]
      omega
    · dsimp only
      omega
    · dsimp only
      omega
  · refine ⟨⟨hrange, ?_, hnanos.trans (by decide)⟩, fun hleap => ?_⟩
    · simp only [secondsPerDay]
      omega
    · exact absurd (of_decide_eq_true hleap) (Nat.not_le.2 hnanos)

/-- A timestamp that is read is valid. -/
theorem isValid_read {text : String} (h : read text = .ok t) : t.IsValid :=
  (isText_of_read h).isValid

/-- What is reached from a valid timestamp is valid. -/
theorem IsValid.addSeconds? (ht : t.IsValid) (h : t.addSeconds? span = some u) : u.IsValid := by
  by_cases hspan : span = 0
  · subst hspan
    obtain rfl := Option.some.inj (t.addSeconds?_zero.symm.trans h)
    exact ht
  · rw [Timestamp.addSeconds?, if_neg hspan] at h
    obtain ⟨hday, h⟩ := Option.ite_none_right_eq_some.1 h
    obtain rfl := Option.some.inj h
    refine ⟨⟨hday, ?_, ?_⟩, fun hleap => ?_⟩
    · simp only [secondsPerDay]
      omega
    · exact (Nat.mod_lt _ (by decide)).trans (by decide)
    · have hlate : 1000000000 ≤ t.nanos % 1000000000 := of_decide_eq_true hleap
      omega

/-- A timestamp that is moved is so many seconds away, and its fraction stays. -/
theorem IsValid.moved (ht : t.IsValid) (hleap : t.isLeapSecond = false)
    (h : t.addSeconds? span = some u) : u.seconds = t.seconds + span ∧ u.nanos = t.nanos := by
  have hlt := ht.second_lt
  rcases eq_or_ne span 0 with rfl | hspan
  · obtain rfl := Option.some.inj (t.addSeconds?_zero.symm.trans h)
    exact ⟨(add_zero _).symm, rfl⟩
  · rw [Timestamp.addSeconds?, if_neg hspan, hleap, Bool.false_and, if_neg Bool.false_ne_true] at h
    obtain rfl := Option.some.inj (Option.ite_none_right_eq_some.1 h).2
    constructor
    · simp only [seconds, secondsPerDay] at hlt ⊢
      omega
    · exact Nat.mod_eq_of_lt (isLeapSecond_eq_false_iff.1 hleap)

/-- With the same fraction, the order of time is that of the seconds. -/
theorem IsValid.isBefore_iff (ht : t.IsValid) (hu : u.IsValid) (hnanos : t.nanos = u.nanos) :
    t.isBefore u = true ↔ t.seconds < u.seconds := by
  have hlt := ht.second_lt
  have hlt' := hu.second_lt
  simp only [secondsPerDay] at hlt hlt'
  simp only [isBefore, seconds, secondsPerDay, hnanos, Bool.or_eq_true, Bool.and_eq_true,
    decide_eq_true_eq, beq_iff_eq]
  omega

/-- No two timestamps are farther apart. -/
theorem IsValid.lt_of_addSeconds? (ht : t.IsValid) (hleap : t.isLeapSecond = false)
    (h : t.addSeconds? span = some u) : span < 2 ^ 44 := by
  have hfirst : firstDay.number = -95745824 := by decide
  have hlast : lastDay.number = 95745704 := by decide
  have hu := ht.addSeconds? h
  have hseconds := (ht.moved hleap h).1
  have hrange := ht.inRange
  have hrange' := hu.inRange
  have hlt := hu.second_lt
  simp only [Day.inRange, hfirst, hlast, Bool.and_eq_true, decide_eq_true_eq, seconds,
    secondsPerDay] at hrange hrange' hseconds hlt
  omega

end Timestamp

end Calendar

end LocalGrid
