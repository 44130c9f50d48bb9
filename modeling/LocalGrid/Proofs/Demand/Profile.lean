import LocalGrid.Demand.Profile
import LocalGrid.Proofs.Quantity.Readings
import LocalGrid.Proofs.Random.Range
import LocalGrid.Proofs.Rounding.Distance

/-!
# Random demand

A random series consists of integers of its range, each as the number of single precision nearest to
it. The order in which the bounds are given does not matter. Every value moves the stream of words
on by one or two words, and the values before it do not depend on how many follow: a longer series
begins with the shorter one.
-/

namespace LocalGrid

open Quantity RoundedQuantity

/-! ## Words as numbers -/

/-- A word is rounded to the nearest number, and none is too large. -/
theorem value?_word (n : UInt32) :
    value? n.toFloat32 = some ((Rounding.nearest .binary32 n.toNat : ℝ) : EReal) := by
  have hpoint : Rounding.IsPoint .binary32 (2 ^ 32) :=
    ⟨1, 32, by decide, by decide, by norm_num⟩
  have hnonneg := Rounding.nearest_nonneg .binary32 (Nat.cast_nonneg n.toNat)
  have hle : Rounding.nearest .binary32 n.toNat ≤ 2 ^ 32 := by
    rw [← Rounding.nearest_of_isPoint _ hpoint]
    exact Rounding.nearest_mono _ (by exact_mod_cast n.toNat_lt.le)
  have hlimit : |Rounding.nearest .binary32 n.toNat| < Rounding.limit .binary32 := by
    rw [abs_of_nonneg hnonneg]
    exact hle.trans_lt (pow_lt_pow_right₀ one_lt_two (by decide))
  have hvalue : value? n.toFloat32 = some (Rounding.round .binary32 (n.toNat : ℝ)) :=
    PackedQuantity.value?_of_approximates rfl (Rounding.approximates_ofNat .binary32 n.toNat)
  rw [hvalue, Rounding.round_coe, Rounding.fit_of_abs_lt _ hlimit]

def IsNearest (x : Float32) (r : ℝ) : Prop :=
  ∃ s : ℝ, value? x = some (s : EReal) ∧
    ∀ (y : Float32) (t : ℝ), value? y = some (t : EReal) → |s - r| ≤ |t - r|

theorem isNearest_word (n : UInt32) : IsNearest n.toFloat32 n.toNat :=
  ⟨_, value?_word n, fun _ _ ht =>
    Rounding.abs_nearest_sub_le_of_isPoint _ (PackedQuantity.isPoint_of_value? ht)⟩

/-! ## Draws -/

theorem Random.exists_draw {σ β : Type} {draw : σ → β × σ} {n : ℕ} {s : σ} {x : β}
    (h : x ∈ (draws draw n s).1) : ∃ t, x = (draw t).1 := by
  induction n generalizing s with
  | zero => cases h
  | succ n ih =>
      rw [draws] at h
      rcases List.mem_cons.1 h with rfl | h
      · exact ⟨s, rfl⟩
      · exact ih h

namespace Demand

variable {low high : UInt32} {seed : UInt64} {steps m n : ℕ} {xs : List Float32} {x : Float32}

/-! ## Series -/

theorem uniformProfile_of_le (h : low ≤ high) (steps : ℕ) (seed : UInt64) :
    uniformProfile steps low high seed =
      (Random.draws (uniformDraw low high) steps (.ofSeed seed)).1 :=
  if_pos h

/-- The bounds of a series can be given in either order. -/
theorem uniformProfile_swap (steps : ℕ) (low high : UInt32) (seed : UInt64) :
    uniformProfile steps high low seed = uniformProfile steps low high seed := by
  by_cases h : low ≤ high
  · by_cases h' : high ≤ low
    · rw [UInt32.le_antisymm h h']
    · rw [uniformProfile_of_le h, uniformProfile]
      exact if_neg h'
  · have h' : high ≤ low := UInt32.le_of_lt (UInt32.not_le.1 h)
    rw [uniformProfile_of_le h', uniformProfile]
    exact (if_neg h).symm

theorem exists_word_of_mem (h : x ∈ uniformProfile steps low high seed) :
    ∃ k : UInt32, min low.toNat high.toNat ≤ k.toNat ∧ k.toNat ≤ max low.toNat high.toNat ∧
      x = k.toFloat32 := by
  wlog hle : low ≤ high generalizing low high
  · rw [min_comm, max_comm]
    exact this (uniformProfile_swap steps low high seed ▸ h)
      (UInt32.le_of_lt (UInt32.not_le.1 hle))
  rw [uniformProfile_of_le hle] at h
  obtain ⟨t, rfl⟩ := Random.exists_draw h
  obtain ⟨hlow, hhigh⟩ := Random.inRange_mem hle t
  exact ⟨(Random.inRange low high t).1, min_le_of_left_le (UInt32.le_iff_toNat_le.1 hlow),
    le_max_of_le_right (UInt32.le_iff_toNat_le.1 hhigh), rfl⟩

/-- A longer series begins with the shorter one. -/
theorem take_uniformProfile (h : n ≤ m) (low high : UInt32) (seed : UInt64) :
    (uniformProfile m low high seed).take n = uniformProfile n low high seed := by
  simp only [uniformProfile]
  split_ifs <;> exact Random.take_draws _ h _

theorem uniformProfile?_eq_some_iff :
    uniformProfile? steps low high seed = some xs ↔
      steps ≤ maxLength ∧ uniformProfile steps low high seed = xs := by
  rw [uniformProfile?, Option.ite_none_right_eq_some, Option.some.injEq]

/-- A random series has as many values as it has steps, if so many can be held. Its values are
integers between the two bounds, in whichever order these are given, and its first values are the
series for fewer steps. -/
theorem random_series (low high : UInt32) (seed : UInt64) :
    (∀ steps ≤ maxLength, ∃ xs, uniformProfile? steps low high seed = some xs ∧
      xs.length = steps) ∧
    (∀ steps xs, uniformProfile? steps low high seed = some xs → ∀ x ∈ xs, ∃ k : UInt32,
      min low.toNat high.toNat ≤ k.toNat ∧ k.toNat ≤ max low.toNat high.toNat ∧
        x = k.toFloat32 ∧ IsNearest x k.toNat) ∧
    (∀ steps, uniformProfile? steps high low seed = uniformProfile? steps low high seed) ∧
    (∀ n m ys, n ≤ m → uniformProfile? m low high seed = some ys →
      uniformProfile? n low high seed = some (ys.take n)) := by
  refine ⟨fun steps hsteps => ?_, fun steps xs hxs x hx => ?_, fun steps => ?_,
    fun n m ys hnm hys => ?_⟩
  · exact ⟨_, uniformProfile?_eq_some_iff.2 ⟨hsteps, rfl⟩, length_uniformProfile _ _ _ _⟩
  · obtain ⟨-, rfl⟩ := uniformProfile?_eq_some_iff.1 hxs
    obtain ⟨k, hlow, hhigh, rfl⟩ := exists_word_of_mem hx
    exact ⟨k, hlow, hhigh, rfl, isNearest_word k⟩
  · rw [uniformProfile?, uniformProfile?, uniformProfile_swap]
  · obtain ⟨hm, rfl⟩ := uniformProfile?_eq_some_iff.1 hys
    exact uniformProfile?_eq_some_iff.2
      ⟨hnm.trans hm, (take_uniformProfile hnm low high seed).symm⟩

/-- All words but the greatest one, for which nearly every value takes two words. -/
theorem random_series_allButOne :
    uniformProfile? 3 4294967294 0 7 = some [1789459328, 612261760, 260816080] ∧
      (∃ k : UInt32, min (4294967294 : UInt32).toNat (0 : UInt32).toNat ≤ k.toNat ∧
        k.toNat ≤ max (4294967294 : UInt32).toNat (0 : UInt32).toNat ∧
          1789459328 = k.toFloat32 ∧ IsNearest 1789459328 k.toNat) ∧
      uniformProfile? 3 0 4294967294 7 = uniformProfile? 3 4294967294 0 7 ∧
      uniformProfile? 2 4294967294 0 7 = some [1789459328, 612261760] := by
  have hseries : uniformProfile? 3 4294967294 0 7 =
      some [1789459328, 612261760, 260816080] := by decide +kernel
  obtain ⟨-, hvalues, hswap, hprefix⟩ := random_series 4294967294 0 7
  exact ⟨hseries, hvalues 3 _ hseries _ List.mem_cons_self, hswap 3,
    hprefix 2 3 _ (by decide) hseries⟩

end Demand

end LocalGrid
