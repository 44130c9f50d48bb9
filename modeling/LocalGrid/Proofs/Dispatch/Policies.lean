import LocalGrid.Proofs.Comparison
import LocalGrid.Proofs.Quantity.Readings
import LocalGrid.Proofs.Quantity.Same

/-!
# The extremes of peak shaving

With a threshold below every demand, peak shaving discharges on every deficit, as the default policy
does. The two still take different branches when the pool is empty: one asks it for the deficit and
is given nothing, the other leaves it alone. Both report the same numbers, and the pools they leave
hold the same number, though not always the same zero; so `Pool.Agrees` is what a step preserves.
With a threshold that no demand exceeds, peak shaving never discharges, and the level only rises.
-/

namespace LocalGrid

open Quantity RoundedQuantity

variable {α : Type}

theorem Pool.SameStore.symm {p q : Pool α} (h : p.SameStore q) : q.SameStore p :=
  ⟨h.1.symm, h.2.symm⟩

theorem Pool.SameStore.trans {p q r : Pool α} (h : p.SameStore q) (h' : q.SameStore r) :
    p.SameStore r :=
  ⟨h.1.trans h'.1, h.2.trans h'.2⟩

variable [Quantity α]

def Policy.dispatchAll? (policy : Policy α) :
    List (Balance α) → Pool α → Option (List (Exchange α × Pool α))
  | [], _ => some []
  | b :: rest, p => do
    let (x, q) ← policy.dispatch? b p
    let outcomes ← policy.dispatchAll? rest q
    pure ((x, q) :: outcomes)

/-- Two exchanges that report the same numbers. -/
structure Exchange.Agrees (x y : Exchange α) : Prop where
  change : SameNumber x.change y.change
  gridExport : SameNumber x.gridExport y.gridExport
  gridImport : SameNumber x.gridImport y.gridImport

/-- Two pools that hold the same number in the same store. -/
structure Pool.Agrees (p q : Pool α) : Prop where
  sameStore : p.SameStore q
  level : SameNumber p.level q.level

variable {p q p' q' : Pool α} {b : Balance α} {x y : Exchange α} {z threshold : α}
  {stored stored' released released' : α}

theorem Policy.dispatchAll?_cons_eq_some_iff {policy : Policy α} {rest : List (Balance α)}
    {outcomes : List (Exchange α × Pool α)} :
    policy.dispatchAll? (b :: rest) p = some outcomes ↔
      ∃ x q later, policy.dispatch? b p = some (x, q) ∧ policy.dispatchAll? rest q = some later ∧
        outcomes = (x, q) :: later := by
  simp only [dispatchAll?, Option.bind_eq_bind, Option.bind_eq_some_iff, Option.pure_def,
    Option.some.injEq, eq_comm (b := outcomes)]
  constructor
  · rintro ⟨⟨x, q⟩, hstep, later, hlater, heq⟩
    exact ⟨x, q, later, hstep, hlater, heq⟩
  · rintro ⟨x, q, later, hstep, hlater, heq⟩
    exact ⟨(x, q), hstep, later, hlater, heq⟩

theorem Pool.Agrees.symm (h : p.Agrees q) : q.Agrees p := ⟨h.sameStore.symm, h.level.symm⟩

/-! ## When a threshold counts -/

namespace Policy

theorem dispatch?_of_peak (hdeficit : b.hasSurplus = false) (hpeak : threshold < b.demand)
    (hlevel : p.isEmpty = false) : (peakShaving threshold).dispatch? b p = p.cover? b := by
  simp [dispatch?, hdeficit, hpeak, hlevel]

theorem dispatch?_of_isEmpty (hdeficit : b.hasSurplus = false) (hlevel : p.isEmpty = true) :
    (peakShaving threshold).dispatch? b p = some (b.hold, p) := by
  simp [dispatch?, hdeficit, hlevel]

theorem dispatch?_of_not_peak (hdeficit : b.hasSurplus = false) (hpeak : ¬ threshold < b.demand) :
    (peakShaving threshold).dispatch? b p = some (b.hold, p) := by
  simp [dispatch?, hdeficit, hpeak]

end Policy

/-! ## What is reported -/

namespace Pool

theorem stored_eq (h : p.charge? z = some (stored, q)) : stored = q.level - p.level := by
  obtain ⟨after, -, rfl, rfl⟩ := setLevel?_eq_some_iff.1 h
  rfl

theorem released_eq (h : p.discharge? z = some (released, q)) :
    released = -(q.level - p.level) := by
  obtain ⟨⟨change, r⟩, hr, heq⟩ := Option.map_eq_some_iff.1 h
  obtain ⟨rfl, rfl⟩ := Prod.mk.inj heq
  obtain ⟨after, -, rfl, rfl⟩ := setLevel?_eq_some_iff.1 hr
  rfl

theorem exchange_of_absorb? (h : p.absorb? b = some (x, q)) :
    x = ⟨x.change, positivePart (b.surplus - p.drawnFor b x.change), 0⟩ :=
  (Prod.mk.inj (Option.some.inj
    (h.symm.trans (absorb?_of_charge? (charge?_of_absorb? h))))).1

theorem exists_released_of_cover? (h : p.cover? b = some (x, q)) :
    ∃ released, p.discharge? b.deficit = some (released, q) ∧
      x = ⟨-released, 0, positivePart (b.deficit - released)⟩ := by
  obtain ⟨released, hreleased⟩ := exists_discharge?_of_cover? h
  exact ⟨released, hreleased, (Prod.mk.inj (Option.some.inj
    (h.symm.trans (cover?_of_discharge? hreleased)))).1⟩

end Pool

variable [RoundedQuantity α]

/-! ## Offers and requests -/

namespace Pool

theorem WellFormed.agrees_self (h : p.WellFormed) : p.Agrees p :=
  ⟨⟨rfl, rfl⟩, (isNumber_of_isFinite h.isFinite_level).same⟩

theorem Agrees.trans {r : Pool α} (h : p.Agrees q) (h' : q.Agrees r) : p.Agrees r :=
  ⟨h.sameStore.trans h'.sameStore, same_trans h.level h'.level⟩

/-- Of two pools that agree each is below the other. -/
theorem Agrees.below (h : p.Agrees q) (hp : p.WellFormed) : p.Below q where
  capacity_eq := h.sameStore.1
  efficiency_le := by
    rw [← h.sameStore.2]
    exact isNumber_of_isFinite (isFinite_of_isShare hp.isShare_efficiency)
  level_le := h.level.1

/-- Pools that agree before and after have changed by the same number. -/
theorem Agrees.change (h : p.Agrees q) (h' : p'.Agrees q') (hp' : p'.Follows p)
    (hq' : q'.Follows q) : SameNumber (p'.level - p.level) (q'.level - q.level) :=
  same_sub hp'.wellFormed.isFinite_level hq'.wellFormed.isFinite_level h'.level h.level

theorem Agrees.charge? (h : p.Agrees q) (hp : p.WellFormed) (hq : q.WellFormed)
    (hz : isFinite z = true) (hp' : p.charge? z = some (stored, p'))
    (hq' : q.charge? z = some (stored', q')) : p'.Agrees q' ∧ SameNumber stored stored' := by
  have hnumber := isNumber_of_isFinite hz
  have hoffer := isFinite_positivePart hz hnumber
  have hle := (h.below hp).charge? hp hq hoffer hnumber hp' hq'
  have hge := (h.symm.below hq).charge? hq hp hoffer hnumber hq' hp'
  have hstore := (charge?_keeps hp').trans (h.sameStore.trans (charge?_keeps hq').symm)
  have hagrees : p'.Agrees q' := ⟨hstore, hle.level_le, hge.level_le⟩
  rw [stored_eq hp', stored_eq hq']
  exact ⟨hagrees,
    h.change hagrees (charge?_raises hp hoffer hp').1 (charge?_raises hq hoffer hq').1⟩

theorem Agrees.discharge? (h : p.Agrees q) (hp : p.WellFormed) (hq : q.WellFormed)
    (hz : IsNumber z) (hp' : p.discharge? z = some (released, p'))
    (hq' : q.discharge? z = some (released', q')) :
    p'.Agrees q' ∧ SameNumber released released' := by
  have hle := (h.below hp).discharge? hp hq hz hp' hq'
  have hge := (h.symm.below hq).discharge? hq hp hz hq' hp'
  have hstore := (discharge?_keeps hp').trans (h.sameStore.trans (discharge?_keeps hq').symm)
  have hagrees : p'.Agrees q' := ⟨hstore, hle.level_le, hge.level_le⟩
  rw [released_eq hp', released_eq hq']
  exact ⟨hagrees, same_neg
    (h.change hagrees (discharge?_lowers hp hp').1 (discharge?_lowers hq hq').1)⟩

/-! ## Exchanges -/

/-- For the same amount stored, two pools that agree draw the same amount. -/
theorem Agrees.drawnFor (h : p.Agrees q) (hp : p.WellFormed) (hb : b.Sound)
    (hstored : isFinite stored = true) (hsame : SameNumber stored stored') :
    SameNumber (p.drawnFor b stored) (q.drawnFor b stored') := by
  unfold Pool.drawnFor
  rw [← h.sameStore.2]
  split_ifs with hpos
  · have hefficiency := isFinite_of_isShare hp.isShare_efficiency
    exact same_smaller (same_div hstored hefficiency hpos hsame)
      (isNumber_of_isFinite hb.isFinite_surplus)
  · exact isNumber_zero.same

theorem Agrees.absorb? (h : p.Agrees q) (hp : p.WellFormed) (hq : q.WellFormed) (hb : b.Sound)
    (hp' : p.absorb? b = some (x, p')) (hq' : q.absorb? b = some (y, q')) :
    x.Agrees y ∧ p'.Agrees q' := by
  have hsurplus := hb.isFinite_surplus
  have hcharge := charge?_of_absorb? hp'
  obtain ⟨hagrees, hchange⟩ := h.charge? hp hq hsurplus hcharge (charge?_of_absorb? hq')
  have hafter := (charge?_raises hp hb.isFinite_offer hcharge).1.wellFormed
  have hfinite : isFinite x.change = true := by
    rw [stored_eq hcharge]
    exact isFinite_sub hafter.isFinite_level hp.isFinite_level hafter.level_nonneg hp.level_nonneg
  have hdrawn := h.drawnFor hp hb hfinite hchange
  rw [exchange_of_absorb? hp', exchange_of_absorb? hq']
  exact ⟨⟨hchange,
    same_positivePart (same_sub hsurplus hsurplus (isNumber_of_isFinite hsurplus).same hdrawn),
    isNumber_zero.same⟩, hagrees⟩

theorem Agrees.cover? (h : p.Agrees q) (hp : p.WellFormed) (hq : q.WellFormed) (hb : b.Sound)
    (hg : 0 ≤ b.generation) (hp' : p.cover? b = some (x, p')) (hq' : q.cover? b = some (y, q')) :
    x.Agrees y ∧ p'.Agrees q' := by
  have hfinite := (hb.deficit_bounds hg).2
  have hnumber := isNumber_of_isFinite hfinite
  obtain ⟨released, hdischarge, rfl⟩ := exists_released_of_cover? hp'
  obtain ⟨released', hdischarge', rfl⟩ := exists_released_of_cover? hq'
  obtain ⟨hagrees, hreleased⟩ := h.discharge? hp hq hnumber hdischarge hdischarge'
  exact ⟨⟨same_neg hreleased, isNumber_zero.same,
    same_positivePart (same_sub hfinite hfinite hnumber.same hreleased)⟩, hagrees⟩

/-- An empty pool that is asked for a deficit does what it does when it is left alone. -/
theorem cover?_of_isEmpty (hp : p.WellFormed) (hb : b.Sound) (hg : 0 ≤ b.generation)
    (hempty : p.isEmpty = true) (hp' : p.cover? b = some (x, p')) :
    x.Agrees b.hold ∧ p'.Agrees p := by
  have hlevel : p.level ≤ 0 := of_decide_eq_true hempty
  have hsame : SameNumber 0 p.level := ⟨hp.level_nonneg, hlevel⟩
  obtain ⟨hdeficit, hfinite⟩ := hb.deficit_bounds hg
  obtain ⟨released, hdischarge, rfl⟩ := exists_released_of_cover? hp'
  have hzero : p'.level = 0 := by
    obtain ⟨q, hq, -, -, hcovers, -⟩ := discharge?_spec hp b.deficit
    obtain ⟨-, rfl⟩ := Prod.mk.inj (Option.some.inj (hq.symm.trans hdischarge))
    exact hcovers (le_trans hlevel (positivePart_nonneg _))
  -- nothing is released, and a zero of either sign leaves the deficit as it is
  have hreleased : SameNumber 0 released := by
    rw [released_eq hdischarge, hzero]
    exact same_trans same_neg_zero (same_neg (same_sub_zero isFinite_zero hsame).symm)
  have himport := same_sub_zero hfinite hreleased
  exact ⟨⟨same_trans (same_neg hreleased.symm) same_neg_zero.symm, isNumber_zero.same,
    same_trans (same_positivePart himport) (same_positivePart_self hdeficit)⟩,
    discharge?_keeps hdischarge, hzero ▸ hsame⟩

end Pool

namespace Policy

theorem dispatch?_follows {policy : Policy α} (hp : p.WellFormed) (hb : b.Sound)
    (h : policy.dispatch? b p = some (x, q)) : q.Follows p := by
  obtain ⟨y, r, hr, -, hfollows⟩ := policy.dispatch?_spec hp hb
  obtain ⟨-, rfl⟩ := Prod.mk.inj (Option.some.inj (hr.symm.trans h))
  exact hfollows

/-- With a threshold below the demand, peak shaving agrees with the default policy. -/
theorem dispatch?_agrees (h : p.Agrees q) (hp : p.WellFormed) (hq : q.WellFormed) (hb : b.Sound)
    (hg : 0 ≤ b.generation) (hpeak : threshold < b.demand)
    (hp' : default.dispatch? b p = some (x, p'))
    (hq' : (peakShaving threshold).dispatch? b q = some (y, q')) :
    x.Agrees y ∧ p'.Agrees q' := by
  cases hsurplus : b.hasSurplus with
  | true =>
      rw [dispatch?_of_surplus _ hsurplus] at hp' hq'
      exact h.absorb? hp hq hb hp' hq'
  | false =>
      rw [dispatch?_default hsurplus] at hp'
      cases hempty : q.isEmpty with
      | true =>
          rw [dispatch?_of_isEmpty hsurplus hempty, Option.some.injEq, Prod.mk.injEq] at hq'
          obtain ⟨rfl, rfl⟩ := hq'
          have hempty' : p.isEmpty = true :=
            decide_eq_true (le_trans h.level.1 (of_decide_eq_true hempty))
          obtain ⟨hx, hleft⟩ := Pool.cover?_of_isEmpty hp hb hg hempty' hp'
          exact ⟨hx, hleft.trans h⟩
      | false =>
          rw [dispatch?_of_peak hsurplus hpeak hempty] at hq'
          exact h.cover? hp hq hb hg hp' hq'

/-- With a threshold that the demand does not exceed, peak shaving lowers no level. -/
theorem dispatch?_rises (hp : p.WellFormed) (hb : b.Sound) (hlow : ¬ threshold < b.demand)
    (h : (peakShaving threshold).dispatch? b p = some (x, q)) :
    q.WellFormed ∧ p.level ≤ q.level := by
  cases hsurplus : b.hasSurplus with
  | true =>
      rw [dispatch?_of_surplus _ hsurplus] at h
      obtain ⟨hfollows, hle⟩ :=
        Pool.charge?_raises hp hb.isFinite_offer (Pool.charge?_of_absorb? h)
      exact ⟨hfollows.wellFormed, hle⟩
  | false =>
      rw [dispatch?_of_not_peak hsurplus hlow, Option.some.injEq, Prod.mk.injEq] at h
      obtain ⟨-, rfl⟩ := h
      exact ⟨hp, isNumber_of_isFinite hp.isFinite_level⟩

/-! ## Sequences of balances -/

variable {bs : List (Balance α)} {outcomes shaved : List (Exchange α × Pool α)}

omit [RoundedQuantity α] in
theorem exists_dispatchAll? (policy : Policy α) (h : 0 ≤ p.capacity) (bs : List (Balance α)) :
    ∃ outcomes, policy.dispatchAll? bs p = some outcomes := by
  induction bs generalizing p with
  | nil => exact ⟨[], rfl⟩
  | cons b rest ih =>
      obtain ⟨x, q, hstep⟩ := policy.exists_dispatch? h b
      obtain ⟨later, hlater⟩ := ih (p := q) (by rwa [(policy.dispatch?_keeps hstep).1])
      exact ⟨_, dispatchAll?_cons_eq_some_iff.2 ⟨x, q, later, hstep, hlater, rfl⟩⟩

theorem dispatchAll?_agrees (h : p.Agrees q) (hp : p.WellFormed) (hq : q.WellFormed)
    (hbs : ∀ b ∈ bs, b.Sound ∧ 0 ≤ b.generation) (hpeak : ∀ b ∈ bs, threshold < b.demand)
    (hp' : default.dispatchAll? bs p = some outcomes)
    (hq' : (peakShaving threshold).dispatchAll? bs q = some shaved) :
    List.Forall₂ (fun o u => o.1.Agrees u.1 ∧ o.2.Agrees u.2) outcomes shaved := by
  induction bs generalizing p q outcomes shaved with
  | nil =>
      obtain rfl : [] = outcomes := Option.some.inj hp'
      obtain rfl : [] = shaved := Option.some.inj hq'
      exact .nil
  | cons b rest ih =>
      obtain ⟨⟨hb, hg⟩, hrest⟩ := List.forall_mem_cons.1 hbs
      obtain ⟨hdemand, hpeaks⟩ := List.forall_mem_cons.1 hpeak
      obtain ⟨x, r, later, hstep, hlater, rfl⟩ := dispatchAll?_cons_eq_some_iff.1 hp'
      obtain ⟨y, t, later', hstep', hlater', rfl⟩ := dispatchAll?_cons_eq_some_iff.1 hq'
      obtain ⟨hexchange, hagrees⟩ := dispatch?_agrees h hp hq hb hg hdemand hstep hstep'
      have hr := (dispatch?_follows hp hb hstep).wellFormed
      have ht := (dispatch?_follows hq hb hstep').wellFormed
      exact .cons ⟨hexchange, hagrees⟩ (ih hagrees hr ht hrest hpeaks hlater hlater')

theorem dispatchAll?_rises (hp : p.WellFormed) (hbs : ∀ b ∈ bs, b.Sound)
    (hlow : ∀ b ∈ bs, ¬ threshold < b.demand)
    (h : (peakShaving threshold).dispatchAll? bs p = some shaved) :
    (p.level :: shaved.map (·.2.level)).Pairwise (· ≤ ·) := by
  induction bs generalizing p shaved with
  | nil =>
      obtain rfl : [] = shaved := Option.some.inj h
      exact List.pairwise_singleton _ _
  | cons b rest ih =>
      obtain ⟨hb, hrest⟩ := List.forall_mem_cons.1 hbs
      obtain ⟨hdemand, hlower⟩ := List.forall_mem_cons.1 hlow
      obtain ⟨x, q, later, hstep, hlater, rfl⟩ := dispatchAll?_cons_eq_some_iff.1 h
      obtain ⟨hq, hle⟩ := dispatch?_rises hp hb hdemand hstep
      have hlevels := ih hq hrest hlower hlater
      refine List.pairwise_cons.2 ⟨?_, hlevels⟩
      intro level hmem
      rcases List.mem_cons.1 hmem with rfl | hmem
      · exact hle
      · exact le_trans hle ((List.pairwise_cons.1 hlevels).1 level hmem)

end Policy

/-! ## Single precision -/

/-- On every sequence of finite balances that are not negative, with steps of at most an hour, both
policies have all outcomes. With a threshold below every demand, peak shaving reports the same
numbers as the default policy and leaves the same numbers in the pool. With a threshold that no
demand exceeds, no level is below an earlier one. -/
theorem peakShaving_extremes {p : Pool Float32} (hp : p.WellFormed) {bs : List (Balance Float32)}
    (hbs : ∀ b ∈ bs, b.Sound ∧ 0 ≤ b.generation) (threshold : Float32) :
    ∃ outcomes shaved, Policy.default.dispatchAll? bs p = some outcomes ∧
      (Policy.peakShaving threshold).dispatchAll? bs p = some shaved ∧
      ((∀ b ∈ bs, threshold < b.demand) →
        List.Forall₂ (fun o u => o.1.Agrees u.1 ∧ o.2.Agrees u.2) outcomes shaved) ∧
      ((∀ b ∈ bs, b.demand ≤ threshold) →
        (p.level :: shaved.map (·.2.level)).Pairwise (· ≤ ·)) := by
  obtain ⟨outcomes, houtcomes⟩ := Policy.default.exists_dispatchAll? hp.capacity_nonneg bs
  obtain ⟨shaved, hshaved⟩ := (Policy.peakShaving threshold).exists_dispatchAll?
    hp.capacity_nonneg bs
  refine ⟨outcomes, shaved, houtcomes, hshaved, fun hpeak => ?_, fun hlow => ?_⟩
  · exact Policy.dispatchAll?_agrees hp.agrees_self hp hp hbs hpeak houtcomes hshaved
  · exact Policy.dispatchAll?_rises hp (fun b hb => (hbs b hb).1)
      (fun b hb => not_lt_of_le (hlow b hb)) hshaved

def drainedPool : Pool Float32 := ⟨10, 0.5, -0⟩

def eveningBalances : List (Balance Float32) := [⟨0, 2, 0.25⟩, ⟨30, 5, 1⟩, ⟨1, 9, 0.25⟩]

/-- At the first deficit the default policy empties the pool to the positive zero, and peak shaving
keeps the negative one. -/
theorem peakShaving_extremes_drained : ∃ outcomes shaved kept,
    Policy.default.dispatchAll? eveningBalances drainedPool = some outcomes ∧
      outcomes.map (·.2.level) = [0, 10, 8] ∧
      (Policy.peakShaving 1).dispatchAll? eveningBalances drainedPool = some shaved ∧
      shaved.map (·.2.level) = [-0, 10, 8] ∧
      List.Forall₂ (fun o u => o.1.Agrees u.1 ∧ o.2.Agrees u.2) outcomes shaved ∧
      (Policy.peakShaving 9).dispatchAll? eveningBalances drainedPool = some kept ∧
      (-0 :: kept.map (·.2.level)).Pairwise (· ≤ ·) := by
  have hpool : drainedPool.WellFormed := by
    constructor <;> decide +kernel
  have hsound : ∀ b ∈ eveningBalances, b.Sound ∧ 0 ≤ b.generation := by
    have hall : ∀ b ∈ eveningBalances, isFinite b.generation = true ∧ isFinite b.demand = true ∧
        0 ≤ b.demand ∧ (0 < b.hours ∧ b.hours ≤ 1) ∧ 0 ≤ b.generation := by
      decide +kernel
    intro b hb
    obtain ⟨hgeneration, hdemand, hdemand0, ⟨hpos, hle⟩, hgeneration0⟩ := hall b hb
    exact ⟨⟨hgeneration, hdemand, hdemand0, hpos, hle⟩, hgeneration0⟩
  have hdefault : (Policy.default.dispatchAll? eveningBalances drainedPool).map
      (fun o => o.map (·.2.level)) = some [0, 10, 8] := by
    decide +kernel
  have hpeak : ((Policy.peakShaving 1).dispatchAll? eveningBalances drainedPool).map
      (fun o => o.map (·.2.level)) = some [-0, 10, 8] := by
    decide +kernel
  obtain ⟨outcomes, shaved, houtcomes, hshaved, hagree, -⟩ := peakShaving_extremes hpool hsound 1
  obtain ⟨-, kept, -, hkept, -, hrises⟩ := peakShaving_extremes hpool hsound 9
  rw [houtcomes, Option.map_some, Option.some.injEq] at hdefault
  rw [hshaved, Option.map_some, Option.some.injEq] at hpeak
  exact ⟨outcomes, shaved, kept, houtcomes, hdefault, hshaved, hpeak, hagree (by decide +kernel),
    hkept, hrises (by decide +kernel)⟩

end LocalGrid
