import LocalGrid.Proofs.Dispatch
import LocalGrid.Proofs.Storage.Returns

/-!
# Bounds on one step of the battery

A surplus only charges and a deficit only discharges, as far as there is room and as far as there
is energy. Whatever is divided by a small efficiency, no more is exported than the surplus, and no
more is imported than the deficit; so nothing that a step reports is no number.
-/

namespace LocalGrid

open Quantity RoundedQuantity

variable {α : Type} [Quantity α] [RoundedQuantity α]

variable {p q : Pool α} {b : Balance α} {x : Exchange α}

namespace Pool

theorem absorb?_change (hp : p.WellFormed) (hb : b.Sound) (h : p.absorb? b = some (x, q)) :
    0 ≤ x.change ∧ x.change ≤ p.headroom := by
  obtain ⟨r, hr, hfollows, hle⟩ := charge?_spec hp hb.isFinite_offer
  obtain ⟨hchange, -⟩ := Prod.mk.inj (Option.some.inj (hr.symm.trans (charge?_of_absorb? h)))
  rw [← hchange]
  exact ⟨sub_nonneg hfollows.wellFormed.isFinite_level hle, hfollows.change_le_headroom hp⟩

theorem cover?_change (hp : p.WellFormed) (h : p.cover? b = some (x, q)) :
    -p.level ≤ x.change ∧ x.change ≤ 0 := by
  obtain ⟨y, r, hr, hchange, hfollows, -, hle, -⟩ := cover?_spec hp b
  obtain ⟨rfl, -⟩ := Prod.mk.inj (Option.some.inj (hr.symm.trans h))
  rw [hchange]
  exact ⟨hfollows.neg_level_le_change hp, sub_nonpos hfollows.wellFormed.isFinite_level hle⟩

end Pool

namespace Policy

/-- On a surplus every policy charges what there is room for, imports nothing, and exports no more
than the surplus. -/
theorem dispatch?_surplus_bounds (policy : Policy α) (hp : p.WellFormed) (hb : b.Sound)
    (hsurplus : b.demand < b.generation) (h : policy.dispatch? b p = some (x, q)) :
    (0 ≤ x.change ∧ x.change ≤ p.headroom) ∧ x.gridImport = 0 ∧
      (0 ≤ x.gridExport ∧ x.gridExport ≤ b.surplus) := by
  rw [policy.dispatch?_of_surplus (decide_eq_true hsurplus)] at h
  obtain ⟨hexport, himport⟩ := Pool.absorb?_exchange hp hb h
  exact ⟨Pool.absorb?_change hp hb h, himport, hexport⟩

/-- Otherwise every policy discharges what there is at most, exports nothing, and imports no more
than the deficit. -/
theorem dispatch?_deficit_bounds (policy : Policy α) (hp : p.WellFormed) (hb : b.Sound)
    (hg : 0 ≤ b.generation) (hdeficit : ¬ b.demand < b.generation)
    (h : policy.dispatch? b p = some (x, q)) :
    (-p.level ≤ x.change ∧ x.change ≤ 0) ∧ x.gridExport = 0 ∧
      (0 ≤ x.gridImport ∧ x.gridImport ≤ b.deficit) := by
  rcases policy.dispatch?_of_deficit (p := p) (decide_eq_false hdeficit) with hcover | hhold
  · rw [hcover] at h
    obtain ⟨hexport, himport⟩ := Pool.cover?_exchange hp hb hg h
    exact ⟨Pool.cover?_change hp h, hexport, himport⟩
  · obtain ⟨rfl, -⟩ := Prod.mk.inj (Option.some.inj (hhold.symm.trans h))
    obtain ⟨hnonneg, hfinite⟩ := hb.deficit_bounds hg
    have hlevel := neg_le_neg hp.level_nonneg
    have hzero : value? (-(0 : α)) = value? (0 : α) := by
      rw [value?_neg, value?_zero, Option.map_some, neg_zero]
    rw [le_congr_of_value hzero] at hlevel
    exact ⟨⟨hlevel, isNumber_zero⟩, rfl, hnonneg, isNumber_of_isFinite hfinite⟩

end Policy

/-! ## Single precision -/

/-- On finite powers that are not negative and a step of at most an hour, every policy has a result,
in which nothing of the pool but its level has changed. With more generation than demand the step
charges no more than fits, imports nothing, and exports no more than the surplus; otherwise it
discharges no more than there is, exports nothing, and imports no more than the deficit. Everything
that it reports is a number. -/
theorem dispatch_one_sided (policy : Policy Float32) {p : Pool Float32} {b : Balance Float32}
    (hp : p.WellFormed) (hb : b.Sound) (hg : 0 ≤ b.generation) :
    ∃ x q, policy.dispatch? b p = some (x, q) ∧ q.SameStore p ∧
      (b.demand < b.generation →
        (0 ≤ x.change ∧ x.change ≤ p.headroom) ∧ x.gridImport = 0 ∧
          (0 ≤ x.gridExport ∧ x.gridExport ≤ b.surplus)) ∧
      (¬ b.demand < b.generation →
        (-p.level ≤ x.change ∧ x.change ≤ 0) ∧ x.gridExport = 0 ∧
          (0 ≤ x.gridImport ∧ x.gridImport ≤ b.deficit)) ∧
      (isNaN x.change = false ∧ isNaN x.gridExport = false ∧ isNaN x.gridImport = false) := by
  obtain ⟨x, q, h, hchange, hfollows⟩ := policy.dispatch?_spec hp hb
  have hlevel := hfollows.wellFormed.isFinite_level
  obtain ⟨⟨hexport, -⟩, himport, -⟩ := policy.dispatch?_exchange hp hb hg h
  refine ⟨x, q, h, policy.dispatch?_keeps h,
    fun hsurplus => policy.dispatch?_surplus_bounds hp hb hsurplus h,
    fun hdeficit => policy.dispatch?_deficit_bounds hp hb hg hdeficit h,
    isNaN_eq_false ?_, isNaN_eq_false (isNumber_right hexport),
    isNaN_eq_false (isNumber_right himport)⟩
  rw [hchange]
  exact isNumber_left (sub_le hlevel hp.level_nonneg)

/-- With the least efficiency there is, the energy that was drawn for what was stored of a great
surplus overflows; it counts as the whole surplus. -/
theorem dispatch_one_sided_overflowing :
    ∃ x q, (Policy.peakShaving (0 / 0) : Policy Float32).dispatch? ⟨3e38, 0, 1⟩ ⟨10, 1e-45, 1⟩ =
        some (x, q) ∧
      (0 ≤ x.change ∧ x.change ≤ 9) ∧ x.gridImport = 0 ∧
      (0 ≤ x.gridExport ∧ x.gridExport ≤ 3e38) := by
  have hp : (⟨10, 1e-45, 1⟩ : Pool Float32).WellFormed := by
    constructor <;> decide +kernel
  have hb : (⟨3e38, 0, 1⟩ : Balance Float32).Sound :=
    ⟨by decide +kernel, by decide +kernel, by decide +kernel, by constructor <;> decide +kernel⟩
  obtain ⟨x, q, h, -, hsurplus, -⟩ :=
    dispatch_one_sided (.peakShaving (0 / 0)) hp hb (by decide +kernel)
  have hbounds := hsurplus (by decide +kernel)
  have hroom : (⟨10, 1e-45, 1⟩ : Pool Float32).headroom = 9 := by decide +kernel
  have hwhole : (⟨3e38, 0, 1⟩ : Balance Float32).surplus = 3e38 := by decide +kernel
  rw [hroom, hwhole] at hbounds
  exact ⟨x, q, h, hbounds⟩

end LocalGrid
