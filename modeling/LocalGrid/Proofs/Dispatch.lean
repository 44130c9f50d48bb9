import LocalGrid.Dispatch
import LocalGrid.Proofs.Storage

/-!
# One step of the battery

On a sound balance every policy keeps a well-formed pool well formed and reports the difference of
its levels, and exports and imports no more than there is surplus and deficit. Without generation a
policy can only discharge: nothing is exported, and the pool is emptied exactly if the policy allows
it and the demand covers the level.
-/

namespace LocalGrid

open Quantity RoundedQuantity

variable {α : Type} [Quantity α]

/-- A step of at most an hour. -/
structure IsStepLength (hours : α) : Prop where
  pos : 0 < hours
  le_one : hours ≤ 1

/-- Finite generation, a finite demand that is not negative, and a step of at most an hour. -/
structure Balance.Sound (b : Balance α) : Prop where
  isFinite_generation : isFinite b.generation = true
  isFinite_demand : isFinite b.demand = true
  demand_nonneg : 0 ≤ b.demand
  isStepLength : IsStepLength b.hours

/-- Whether a policy discharges a pool that is not empty on a deficit. -/
def Policy.Allows (policy : Policy α) (demand : α) : Prop :=
  match policy with
  | .default => True
  | .peakShaving threshold => threshold < demand

variable {p q : Pool α} {b : Balance α}

namespace Pool

def drawnFor (p : Pool α) (b : Balance α) (stored : α) : α :=
  if 0 < p.efficiency then smaller (stored / p.efficiency) b.surplus else 0

theorem absorb?_of_charge? {stored : α} (h : p.charge? b.surplus = some (stored, q)) :
    p.absorb? b = some (⟨stored, positivePart (b.surplus - p.drawnFor b stored), 0⟩, q) := by
  rw [absorb?, h]
  rfl

theorem cover?_of_discharge? {released : α} (h : p.discharge? b.deficit = some (released, q)) :
    p.cover? b = some (⟨-released, 0, positivePart (b.deficit - released)⟩, q) := by
  rw [cover?, h]
  rfl

end Pool

theorem Policy.dispatch?_of_surplus (policy : Policy α) (h : b.hasSurplus = true) :
    policy.dispatch? b p = p.absorb? b := if_pos h

theorem Policy.dispatch?_default (h : b.hasSurplus = false) :
    Policy.default.dispatch? b p = p.cover? b := by
  simp [dispatch?, h]

namespace Pool

variable {x : Exchange α}

/-- A surplus moves the pool by an offer of it. -/
theorem charge?_of_absorb? (h : p.absorb? b = some (x, q)) :
    p.charge? b.surplus = some (x.change, q) := by
  obtain ⟨⟨stored, q'⟩, hq, heq⟩ := Option.bind_eq_some_iff.1 h
  obtain ⟨rfl, rfl⟩ := Prod.mk.inj (Option.some.inj heq)
  exact hq

theorem exists_discharge?_of_cover? (h : p.cover? b = some (x, q)) :
    ∃ released, p.discharge? b.deficit = some (released, q) := by
  obtain ⟨⟨released, q'⟩, hq, heq⟩ := Option.bind_eq_some_iff.1 h
  obtain ⟨-, rfl⟩ := Prod.mk.inj (Option.some.inj heq)
  exact ⟨released, hq⟩

theorem absorb?_keeps (h : p.absorb? b = some (x, q)) : q.SameStore p :=
  charge?_keeps (charge?_of_absorb? h)

theorem cover?_keeps (h : p.cover? b = some (x, q)) : q.SameStore p := by
  obtain ⟨released, hq⟩ := exists_discharge?_of_cover? h
  exact discharge?_keeps hq

end Pool

/-- On a deficit the policies differ in when they hold the pool. -/
theorem Policy.dispatch?_of_deficit (policy : Policy α) (h : b.hasSurplus = false) :
    policy.dispatch? b p = p.cover? b ∨ policy.dispatch? b p = some (b.hold, p) := by
  cases policy with
  | default =>
      left
      simp [dispatch?, h]
  | peakShaving threshold =>
      by_cases hpeak : threshold < b.demand ∧ p.isEmpty = false
      · left
        simp [dispatch?, h, hpeak]
      · right
        simp [dispatch?, h, hpeak]

/-- A step moves nothing but the level. -/
theorem Policy.dispatch?_keeps (policy : Policy α) {x : Exchange α}
    (h : policy.dispatch? b p = some (x, q)) : q.SameStore p := by
  cases hsurplus : b.hasSurplus with
  | true =>
      rw [policy.dispatch?_of_surplus hsurplus] at h
      exact Pool.absorb?_keeps h
  | false =>
      rcases policy.dispatch?_of_deficit (p := p) hsurplus with hcover | hhold
      · exact Pool.cover?_keeps (hcover.symm.trans h)
      · obtain ⟨-, rfl⟩ := Prod.mk.inj (Option.some.inj (hhold.symm.trans h))
        exact ⟨rfl, rfl⟩

/-- A pool with a capacity can be dispatched on every balance. -/
theorem Policy.exists_dispatch? (policy : Policy α) (h : 0 ≤ p.capacity) (b : Balance α) :
    ∃ x q, policy.dispatch? b p = some (x, q) := by
  cases hsurplus : b.hasSurplus with
  | true =>
      obtain ⟨stored, q, hq⟩ := Pool.exists_charge? h b.surplus
      rw [policy.dispatch?_of_surplus hsurplus]
      exact ⟨_, q, Pool.absorb?_of_charge? hq⟩
  | false =>
      obtain ⟨released, q, hq⟩ := Pool.exists_discharge? h b.deficit
      rcases policy.dispatch?_of_deficit (p := p) hsurplus with hcover | hhold
      · exact ⟨_, q, hcover.trans (Pool.cover?_of_discharge? hq)⟩
      · exact ⟨_, p, hhold⟩

variable [RoundedQuantity α]

theorem IsStepLength.isFinite {hours : α} (h : IsStepLength hours) : isFinite hours = true :=
  isFinite_of_le_of_le isFinite_zero isFinite_one (le_of_lt h.pos) h.le_one

/-- The energy of a power above a demand is finite. -/
theorem isFinite_positivePart_energy {x y hours : α} (hx : isFinite x = true) (hy : 0 ≤ y)
    (hh : IsStepLength hours) : isFinite (positivePart ((x - y) * hours)) = true := by
  have hle := sub_le hx hy
  by_cases hpos : 0 < x - y
  · have hfinite := isFinite_of_le_of_le isFinite_zero hx (le_of_lt hpos) hle
    have hshare := mul_share hfinite (le_of_lt hpos) (le_of_lt hh.pos) hh.le_one
    exact isFinite_positivePart hfinite hshare.2
  · have hnonpos := (not_lt_iff isNumber_zero (isNumber_left hle)).1 hpos
    exact isFinite_positivePart isFinite_zero (mul_nonpos hnonpos hh.pos hh.le_one)

namespace Balance

theorem Sound.isFinite_surplus (h : b.Sound) : isFinite b.surplus = true := by
  have hle := sub_le h.isFinite_generation h.demand_nonneg
  have hfinite := isFinite_positivePart h.isFinite_generation hle
  have hshare := mul_share hfinite (positivePart_nonneg _) (le_of_lt h.isStepLength.pos)
    h.isStepLength.le_one
  exact isFinite_of_le_of_le isFinite_zero hfinite hshare.1 hshare.2

theorem Sound.isFinite_offer (h : b.Sound) : isFinite (positivePart b.surplus) = true :=
  isFinite_positivePart h.isFinite_surplus (isNumber_of_isFinite h.isFinite_surplus)

theorem Sound.surplus_nonneg (h : b.Sound) : 0 ≤ b.surplus := by
  have hle := sub_le h.isFinite_generation h.demand_nonneg
  exact (mul_share (isFinite_positivePart h.isFinite_generation hle) (positivePart_nonneg _)
    (le_of_lt h.isStepLength.pos) h.isStepLength.le_one).1

theorem Sound.deficit_bounds (h : b.Sound) (hg : 0 ≤ b.generation) :
    0 ≤ b.deficit ∧ isFinite b.deficit = true := by
  have hfinite := isFinite_positivePart h.isFinite_demand (sub_le h.isFinite_demand hg)
  obtain ⟨hnonneg, hle⟩ := mul_share hfinite (positivePart_nonneg _)
    (le_of_lt h.isStepLength.pos) h.isStepLength.le_one
  exact ⟨hnonneg, isFinite_of_le_of_le isFinite_zero hfinite hnonneg hle⟩

end Balance

namespace Pool

theorem absorb?_spec (hp : p.WellFormed) (hb : b.Sound) :
    ∃ x q, p.absorb? b = some (x, q) ∧ x.change = q.level - p.level ∧ q.Follows p := by
  obtain ⟨q, hq, hfollows, -⟩ := charge?_spec hp hb.isFinite_offer
  exact ⟨_, q, absorb?_of_charge? hq, rfl, hfollows⟩

/-- Covering a deficit exports nothing and lowers the level: to zero if the deficit covers it, and
not as far otherwise. -/
theorem cover?_spec (hp : p.WellFormed) (b : Balance α) :
    ∃ x q, p.cover? b = some (x, q) ∧ x.change = q.level - p.level ∧ q.Follows p ∧
      x.gridExport = 0 ∧ q.level ≤ p.level ∧ (p.level ≤ positivePart b.deficit → q.level = 0) ∧
      (¬ p.level ≤ positivePart b.deficit → 0 < q.level) := by
  obtain ⟨q, hq, hfollows, hle, hempty, hleft⟩ := discharge?_spec hp b.deficit
  exact ⟨_, q, cover?_of_discharge? hq, RoundedQuantity.neg_neg _, hfollows, rfl, hle, hempty,
    hleft⟩

theorem drawnFor_nonneg (hp : p.WellFormed) (hb : b.Sound) {stored : α}
    (hfinite : isFinite stored = true) (h0 : 0 ≤ stored) : 0 ≤ p.drawnFor b stored := by
  unfold drawnFor
  split_ifs with h
  · have hefficiency := isFinite_of_isShare hp.isShare_efficiency
    exact smaller_nonneg (nonneg_div hfinite hefficiency h0 h) hb.surplus_nonneg
  · exact isNumber_zero

theorem absorb?_exchange (hp : p.WellFormed) (hb : b.Sound) {x : Exchange α}
    (h : p.absorb? b = some (x, q)) :
    (0 ≤ x.gridExport ∧ x.gridExport ≤ b.surplus) ∧ x.gridImport = 0 := by
  obtain ⟨q', hq, hfollows, hle⟩ := charge?_spec hp hb.isFinite_offer
  obtain ⟨rfl, -⟩ := Prod.mk.inj (Option.some.inj ((absorb?_of_charge? hq).symm.trans h))
  have hlevel := hfollows.wellFormed.isFinite_level
  have hdrawn := drawnFor_nonneg hp hb
    (isFinite_sub hlevel hp.isFinite_level hfollows.wellFormed.level_nonneg hp.level_nonneg)
    (sub_nonneg hlevel hle)
  exact ⟨⟨positivePart_nonneg _,
    positivePart_sub_le hb.isFinite_surplus hb.surplus_nonneg hdrawn⟩, rfl⟩

theorem cover?_exchange (hp : p.WellFormed) (hb : b.Sound) (hg : 0 ≤ b.generation)
    {x : Exchange α} (h : p.cover? b = some (x, q)) :
    x.gridExport = 0 ∧ 0 ≤ x.gridImport ∧ x.gridImport ≤ b.deficit := by
  obtain ⟨hdeficit, hfinite⟩ := hb.deficit_bounds hg
  obtain ⟨q', hq, hfollows, hle, -⟩ := discharge?_spec hp b.deficit
  obtain ⟨rfl, -⟩ := Prod.mk.inj (Option.some.inj ((cover?_of_discharge? hq).symm.trans h))
  have hlevel := hfollows.wellFormed.isFinite_level
  have hreleased := nonneg_neg (sub_nonpos hlevel hle)
  exact ⟨rfl, positivePart_nonneg _, positivePart_sub_le hfinite hdeficit hreleased⟩

end Pool

theorem Balance.hold_change (hp : p.WellFormed) (b : Balance α) :
    b.hold.change = p.level - p.level :=
  (RoundedQuantity.sub_self hp.isFinite_level).symm

namespace Policy

/-- Every policy keeps the pool well formed and reports the difference of its levels. -/
theorem dispatch?_spec (policy : Policy α) (hp : p.WellFormed) (hb : b.Sound) :
    ∃ x q, policy.dispatch? b p = some (x, q) ∧ x.change = q.level - p.level ∧ q.Follows p := by
  cases hsurplus : b.hasSurplus with
  | true =>
      rw [dispatch?_of_surplus policy hsurplus]
      exact Pool.absorb?_spec hp hb
  | false =>
      rcases dispatch?_of_deficit policy hsurplus with h | h
      · obtain ⟨x, q, hcover, hchange, hfollows, -⟩ := Pool.cover?_spec hp b
        exact ⟨x, q, h.trans hcover, hchange, hfollows⟩
      · exact ⟨b.hold, p, h, b.hold_change hp, hp.follows_self⟩

/-- No more is exported than there is surplus, and no more imported than there is deficit. -/
theorem dispatch?_exchange (policy : Policy α) (hp : p.WellFormed) (hb : b.Sound)
    (hg : 0 ≤ b.generation) {x : Exchange α} (h : policy.dispatch? b p = some (x, q)) :
    (0 ≤ x.gridExport ∧ x.gridExport ≤ b.surplus) ∧
      (0 ≤ x.gridImport ∧ x.gridImport ≤ b.deficit) := by
  have hzero : (0 : α) ≤ 0 := isNumber_zero
  obtain ⟨hdeficit, hfinite⟩ := hb.deficit_bounds hg
  cases hsurplus : b.hasSurplus with
  | true =>
      rw [dispatch?_of_surplus policy hsurplus] at h
      obtain ⟨hexport, himport⟩ := Pool.absorb?_exchange hp hb h
      rw [himport]
      exact ⟨hexport, hzero, hdeficit⟩
  | false =>
      rcases dispatch?_of_deficit (p := p) policy hsurplus with hcover | hhold
      · obtain ⟨hexport, himport⟩ := Pool.cover?_exchange hp hb hg (hcover.symm.trans h)
        rw [hexport]
        exact ⟨⟨hzero, hb.surplus_nonneg⟩, himport⟩
      · obtain ⟨rfl, -⟩ := Prod.mk.inj (Option.some.inj (hhold.symm.trans h))
        exact ⟨⟨hzero, hb.surplus_nonneg⟩, hdeficit, isNumber_of_isFinite hfinite⟩

/-! ## Without generation -/

theorem hasSurplus_of_no_generation (hb : b.Sound) (hg : value? b.generation = some 0) :
    b.hasSurplus = false := by
  have hle : b.generation ≤ b.demand :=
    le_trans ((le_iff_of_value hg value?_zero).2 le_rfl) hb.demand_nonneg
  exact decide_eq_false (not_lt_of_le hle)

/-- Without generation the deficit is the whole demand. -/
theorem value?_deficit (hb : b.Sound) (hg : value? b.generation = some 0) :
    value? (positivePart b.deficit) = value? (b.demand * b.hours) := by
  obtain ⟨r, hr⟩ := isFinite_iff.1 hb.isFinite_demand
  obtain ⟨h, hh⟩ := isFinite_iff.1 hb.isStepLength.isFinite
  have hdiff : value? (b.demand - b.generation) = some (r : EReal) := by
    rw [value?_sub_of_isFinite hr hg, sub_zero, round_value hr]
  have hnonneg : 0 ≤ b.demand - b.generation := by
    rw [le_iff_of_value value?_zero hdiff, ← le_iff_of_value value?_zero hr]
    exact hb.demand_nonneg
  have hdeficit : value? b.deficit = value? (b.demand * b.hours) := by
    rw [Balance.deficit, value?_mul_of_isFinite ((value?_positivePart hnonneg).trans hdiff) hh,
      value?_mul_of_isFinite hr hh]
  have hdeficit0 : 0 ≤ b.deficit :=
    (mul_share (isFinite_iff.2 ⟨r, (value?_positivePart hnonneg).trans hdiff⟩)
      (positivePart_nonneg _) (le_of_lt hb.isStepLength.pos) hb.isStepLength.le_one).1
  rw [value?_positivePart hdeficit0, hdeficit]

/-- Without generation a policy exports nothing and charges nothing. It takes a level to zero if it
discharges at all and the demand covers the level, and leaves something otherwise. -/
theorem dispatch?_of_no_generation (policy : Policy α) (hp : p.WellFormed) (hb : b.Sound)
    (hg : value? b.generation = some 0) (hlevel : 0 < p.level) :
    ∃ x q, policy.dispatch? b p = some (x, q) ∧ x.change = q.level - p.level ∧ q.Follows p ∧
      x.gridExport = 0 ∧ q.level ≤ p.level ∧
      (policy.Allows b.demand ∧ p.level ≤ b.demand * b.hours → q.level = 0) ∧
      (¬ (policy.Allows b.demand ∧ p.level ≤ b.demand * b.hours) → 0 < q.level) := by
  have hsurplus := hasSurplus_of_no_generation hb hg
  have hnotempty : p.isEmpty = false := decide_eq_false fun h => not_lt_of_le h hlevel
  have hcovers : p.level ≤ positivePart b.deficit ↔ p.level ≤ b.demand * b.hours :=
    le_congr_of_value (value?_deficit hb hg)
  obtain ⟨x, q, hcover, hchange, hfollows, hexport, hle, hempty, hleft⟩ := Pool.cover?_spec hp b
  rw [hcovers] at hempty hleft
  by_cases hallows : policy.Allows b.demand
  · refine ⟨x, q, ?_, hchange, hfollows, hexport, hle, fun h => hempty h.2,
      fun h => hleft fun hle => h ⟨hallows, hle⟩⟩
    rw [← hcover]
    cases policy with
    | default => simp [dispatch?, hsurplus]
    | peakShaving threshold =>
        have hpeak : threshold < b.demand := hallows
        simp [dispatch?, hsurplus, hpeak, hnotempty]
  · refine ⟨b.hold, p, ?_, b.hold_change hp, hp.follows_self, rfl,
      isNumber_of_isFinite hp.isFinite_level, fun h => absurd h.1 hallows, fun _ => hlevel⟩
    cases policy with
    | default => exact absurd trivial hallows
    | peakShaving threshold =>
        have hpeak : ¬ threshold < b.demand := hallows
        simp [dispatch?, hsurplus, hpeak]

end Policy

end LocalGrid
