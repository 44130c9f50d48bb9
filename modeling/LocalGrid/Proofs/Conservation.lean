import LocalGrid.Proofs.Dispatch
import LocalGrid.Proofs.Quantity.Exact

/-!
# Conservation of energy

In exact arithmetic the energy above demand in one step is what was drawn for the pool, less what
the pool released, plus the export, less the import.
-/

namespace LocalGrid

open Quantity

namespace Exchange

variable {α : Type} [Quantity α]

def released (x : Exchange α) : α := if x.change < 0 then -x.change else 0

/-- The energy that was drawn for what a pool stored, losses included. -/
def drawn (x : Exchange α) (efficiency : α) : α :=
  if 0 < x.change then x.change / efficiency else 0

end Exchange

variable {p : Pool ℚ} {b : Balance ℚ}

namespace Pool

/-- An offer stores what is left of it after losses, as far as it fits. -/
theorem charge?_exact (hp : p.WellFormed) {x : ℚ} (hx : 0 ≤ x) :
    ∃ q, p.charge? x = some (min (x * p.efficiency) (p.capacity - p.level), q) := by
  have hlevel : 0 ≤ p.level := hp.level_nonneg
  have hfits : p.level ≤ p.capacity := hp.level_le_capacity
  have he : 0 ≤ p.efficiency := (isShare_iff.1 hp.isShare_efficiency).1
  have hoffered : 0 ≤ x * p.efficiency := mul_nonneg hx he
  have hpart : positivePart x = x := by rw [positivePart_eq_max, max_eq_left hx]
  have hroom : p.headroom = p.capacity - p.level := by
    rw [headroom, positivePart_eq_max, max_eq_left (by linarith)]
  by_cases hfull : p.headroom ≤ positivePart x * p.efficiency
  · rw [charge?_of_headroom_le hfull, setLevel?_of_le hp.capacity_nonneg le_rfl]
    rw [hroom, hpart] at hfull
    rw [min_eq_right hfull]
    exact ⟨_, rfl⟩
  · rw [charge?_of_not_headroom_le hfull]
    rw [hroom, hpart] at hfull
    rw [hpart, setLevel?_of_le (by linarith) (by linarith), min_eq_left (by linarith),
      add_sub_cancel_left]
    exact ⟨_, rfl⟩

/-- A request releases as much of it as there is. -/
theorem discharge?_exact (hp : p.WellFormed) {x : ℚ} (hx : 0 ≤ x) :
    ∃ q, p.discharge? x = some (min x p.level, q) := by
  have hlevel : 0 ≤ p.level := hp.level_nonneg
  have hfits : p.level ≤ p.capacity := hp.level_le_capacity
  have hpart : positivePart x = x := by rw [positivePart_eq_max, max_eq_left hx]
  by_cases hcovers : p.level ≤ positivePart x
  · rw [discharge?_of_level_le hcovers, setLevel?_of_le le_rfl hp.capacity_nonneg]
    rw [hpart] at hcovers
    rw [min_eq_right hcovers]
    exact ⟨{ p with level := 0 }, by simp⟩
  · rw [discharge?_of_not_level_le hcovers]
    rw [hpart] at hcovers
    rw [hpart, setLevel?_of_le (by linarith) (by linarith), min_eq_left (by linarith)]
    exact ⟨{ p with level := p.level - x }, by simp⟩

/-- Drawn is what was stored and its losses, which is never more than the surplus. -/
theorem drawnFor_eq {stored : ℚ} (he : 0 ≤ p.efficiency) (h0 : 0 ≤ stored)
    (h : stored ≤ b.surplus * p.efficiency) (hs : 0 ≤ b.surplus) :
    p.drawnFor b stored = (if 0 < stored then stored / p.efficiency else 0) ∧
      p.drawnFor b stored ≤ b.surplus := by
  unfold drawnFor
  rcases he.lt_or_eq with hpos | hzero
  · have hle : stored / p.efficiency ≤ b.surplus := (div_le_iff₀ hpos).2 h
    rw [if_pos hpos, smaller_eq_min, min_eq_left hle]
    refine ⟨?_, hle⟩
    split_ifs with hstored
    · rfl
    · rw [le_antisymm (not_lt.1 hstored) h0, zero_div]
  · rw [← hzero, mul_zero] at h
    rw [← hzero, if_neg (lt_irrefl 0), if_neg (not_lt.2 h)]
    exact ⟨rfl, hs⟩

/-- A surplus goes into the pool or to the grid. -/
theorem absorb?_conserves (hp : p.WellFormed) (hs : 0 ≤ b.surplus) :
    ∃ x q, p.absorb? b = some (x, q) ∧
      b.surplus = x.drawn p.efficiency - x.released + x.gridExport - x.gridImport := by
  have hroom : 0 ≤ p.capacity - p.level := sub_nonneg.2 hp.level_le_capacity
  obtain ⟨he0, -⟩ := isShare_iff.1 hp.isShare_efficiency
  obtain ⟨q, hq⟩ := charge?_exact hp hs
  refine ⟨_, q, absorb?_of_charge? hq, ?_⟩
  have hstored0 := le_min (mul_nonneg hs he0) hroom
  have hstored := min_le_left (b.surplus * p.efficiency) (p.capacity - p.level)
  generalize min (b.surplus * p.efficiency) (p.capacity - p.level) = stored at *
  obtain ⟨hdrawn, hle⟩ := drawnFor_eq he0 hstored0 hstored hs
  simp only [Exchange.drawn, Exchange.released, if_neg (not_lt.2 hstored0), ← hdrawn,
    positivePart_eq_max, max_eq_left (sub_nonneg.2 hle)]
  ring

/-- A deficit comes out of the pool or from the grid. -/
theorem cover?_conserves (hp : p.WellFormed) (hd : 0 ≤ b.deficit) :
    ∃ x q, p.cover? b = some (x, q) ∧
      -b.deficit = x.drawn p.efficiency - x.released + x.gridExport - x.gridImport := by
  obtain ⟨q, hq⟩ := discharge?_exact hp hd
  refine ⟨_, q, cover?_of_discharge? hq, ?_⟩
  have hreleased0 := le_min hd hp.level_nonneg
  have hreleased := min_le_left b.deficit p.level
  generalize min b.deficit p.level = amount at *
  have hdrawn : ¬ 0 < -amount := not_lt.2 (neg_nonpos.2 hreleased0)
  have hamount : (if -amount < 0 then - -amount else 0) = amount := by
    split_ifs with h
    · exact neg_neg amount
    · linarith [neg_nonneg.1 (not_lt.1 h)]
  simp only [Exchange.drawn, Exchange.released, if_neg hdrawn, hamount, positivePart_eq_max,
    max_eq_left (sub_nonneg.2 hreleased)]
  ring

end Pool

theorem Balance.hold_conserves (b : Balance ℚ) (efficiency : ℚ) :
    -b.deficit = b.hold.drawn efficiency - b.hold.released + b.hold.gridExport -
      b.hold.gridImport := by
  simp [Exchange.drawn, Exchange.released, Balance.hold]

/-- Whatever the policy, a step conserves energy. -/
theorem Policy.dispatch?_conserves (policy : Policy ℚ) (hp : p.WellFormed) (hh : 0 ≤ b.hours) :
    ∃ x q, policy.dispatch? b p = some (x, q) ∧
      (b.generation - b.demand) * b.hours =
        x.drawn p.efficiency - x.released + x.gridExport - x.gridImport := by
  cases hsurplus : b.hasSurplus with
  | true =>
      have hlt : b.demand < b.generation := of_decide_eq_true hsurplus
      have heq : b.surplus = (b.generation - b.demand) * b.hours := by
        rw [Balance.surplus, positivePart_eq_max, max_eq_left (by linarith)]
      rw [policy.dispatch?_of_surplus hsurplus, ← heq]
      apply Pool.absorb?_conserves hp
      rw [heq]
      exact mul_nonneg (by linarith) hh
  | false =>
      have hle : b.generation ≤ b.demand := not_lt.1 (of_decide_eq_false hsurplus)
      have heq : -b.deficit = (b.generation - b.demand) * b.hours := by
        rw [Balance.deficit, positivePart_eq_max, max_eq_left (by linarith)]
        ring
      have hdeficit : 0 ≤ b.deficit := by
        rw [Balance.deficit, positivePart_eq_max]
        exact mul_nonneg (le_max_right _ _) hh
      rw [← heq]
      rcases policy.dispatch?_of_deficit (p := p) hsurplus with h | h
      · rw [h]
        exact Pool.cover?_conserves hp hdeficit
      · exact ⟨b.hold, p, h, b.hold_conserves p.efficiency⟩

end LocalGrid
