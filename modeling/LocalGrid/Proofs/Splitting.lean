import LocalGrid.Proofs.Conservation

/-!
# Parts of a step

In exact arithmetic a step of the battery depends on its powers and its length only through the
energy above demand. A pool saturates at one end only while it is moved in one direction, so an
energy that is settled in parts of one sign leaves the same level as the whole, and the parts of
what was exchanged add up to what the whole exchanges.
-/

namespace LocalGrid

open Quantity

instance : Add (Exchange ℚ) :=
  ⟨fun x y => ⟨x.change + y.change, x.gridExport + y.gridExport, x.gridImport + y.gridImport⟩⟩

theorem Exchange.add_def (x y : Exchange ℚ) : x + y =
    ⟨x.change + y.change, x.gridExport + y.gridExport, x.gridImport + y.gridImport⟩ := rfl

namespace Pool

variable {p q : Pool ℚ} {x y : ℚ}

/-- The pool after an energy was settled with it: offered if it is positive, and requested
otherwise. -/
def settled (p : Pool ℚ) (energy : ℚ) : Pool ℚ :=
  { p with level :=
      if 0 < energy then min (p.level + energy * p.efficiency) p.capacity
      else max (p.level + energy) 0 }

def settlement (p : Pool ℚ) (energy : ℚ) : Exchange ℚ :=
  let change := (p.settled energy).level - p.level
  if 0 < energy then ⟨change, energy - change / p.efficiency, 0⟩ else ⟨change, 0, change - energy⟩

theorem settled_zero (hp : p.WellFormed) : p.settled 0 = p := by
  have hlevel : 0 ≤ p.level := hp.level_nonneg
  rw [settled, if_neg (lt_irrefl 0), add_zero, max_eq_left hlevel]

theorem settlement_zero (hp : p.WellFormed) : p.settlement 0 = ⟨0, 0, 0⟩ := by
  simp [settlement, settled_zero hp]

theorem level_settled_of_nonneg (hp : p.WellFormed) (h : 0 ≤ x) :
    (p.settled x).level = min (p.level + x * p.efficiency) p.capacity := by
  rcases h.lt_or_eq with hpos | rfl
  · exact if_pos hpos
  · have hfits : p.level ≤ p.capacity := hp.level_le_capacity
    rw [settled_zero hp, zero_mul, add_zero, min_eq_left hfits]

theorem level_settled_of_nonpos (h : x ≤ 0) : (p.settled x).level = max (p.level + x) 0 :=
  if_neg (not_lt.2 h)

theorem settlement_of_nonneg (hp : p.WellFormed) (h : 0 ≤ x) :
    p.settlement x = ⟨(p.settled x).level - p.level,
      x - ((p.settled x).level - p.level) / p.efficiency, 0⟩ := by
  rcases h.lt_or_eq with hpos | rfl
  · exact if_pos hpos
  · simp [settlement_zero hp, settled_zero hp]

theorem settlement_of_nonpos (h : x ≤ 0) :
    p.settlement x =
      ⟨(p.settled x).level - p.level, 0, (p.settled x).level - p.level - x⟩ :=
  if_neg (not_lt.2 h)

theorem WellFormed.settled (hp : p.WellFormed) (x : ℚ) : (p.settled x).WellFormed := by
  have hlevel : 0 ≤ p.level := hp.level_nonneg
  have hfits : p.level ≤ p.capacity := hp.level_le_capacity
  have he : 0 ≤ p.efficiency := (isShare_iff.1 hp.isShare_efficiency).1
  rcases le_total 0 x with hx | hx
  · refine ⟨rfl, hp.isShare_efficiency, ?_, ?_⟩ <;> rw [level_settled_of_nonneg hp hx]
    · exact le_min (by positivity) (hlevel.trans hfits)
    · exact min_le_right _ _
  · refine ⟨rfl, hp.isShare_efficiency, ?_, ?_⟩ <;> rw [level_settled_of_nonpos hx]
    · exact le_max_right _ _
    · have hless : p.level + x ≤ p.capacity := by linarith
      exact max_le hless (hlevel.trans hfits)

/-! ## One step -/

theorem eq_settled (h : q.Follows p) (hlevel : q.level = (p.settled x).level) :
    q = p.settled x := by
  obtain ⟨capacity, efficiency, level⟩ := q
  obtain ⟨-, rfl, rfl⟩ := h
  obtain rfl := hlevel
  rfl

theorem charge?_settled (hp : p.WellFormed) (hx : 0 ≤ x) :
    p.charge? x = some ((p.settled x).level - p.level, p.settled x) := by
  obtain ⟨q, hq, hfollows, -⟩ := charge?_spec hp (x := x) rfl
  obtain ⟨q', hq'⟩ := charge?_exact hp hx
  obtain ⟨hstored, rfl⟩ := Prod.mk.inj (Option.some.inj (hq.symm.trans hq'))
  have hlevel : q.level = (p.settled x).level := by
    rw [level_settled_of_nonneg hp hx, sub_eq_iff_eq_add.1 hstored, ← min_add_add_right]
    congr 1 <;> ring
  rw [hq, ← hlevel, eq_settled hfollows hlevel]

theorem discharge?_settled (hp : p.WellFormed) (hx : 0 ≤ x) :
    p.discharge? x = some (p.level - (p.settled (-x)).level, p.settled (-x)) := by
  obtain ⟨q, hq, hfollows, -⟩ := discharge?_spec hp x
  obtain ⟨q', hq'⟩ := discharge?_exact hp hx
  obtain ⟨hreleased, rfl⟩ := Prod.mk.inj (Option.some.inj (hq.symm.trans hq'))
  have hlevel : q.level = (p.settled (-x)).level := by
    rw [level_settled_of_nonpos (neg_nonpos.2 hx)]
    have heq : q.level = p.level - min x p.level := by linarith
    rw [heq, sub_eq_add_neg, ← max_neg_neg, ← max_add_add_left, add_neg_cancel]
  rw [hq, ← hlevel, eq_settled hfollows hlevel, neg_sub]

variable {b : Balance ℚ}

theorem absorb?_settled (hp : p.WellFormed) (h : 0 ≤ b.surplus) :
    p.absorb? b = some (p.settlement b.surplus, p.settled b.surplus) := by
  have he : 0 ≤ p.efficiency := (isShare_iff.1 hp.isShare_efficiency).1
  have hfits : p.level ≤ p.capacity := hp.level_le_capacity
  have hlevel := level_settled_of_nonneg hp h
  have hstored0 : 0 ≤ (p.settled b.surplus).level - p.level := by
    rw [hlevel, sub_nonneg]
    exact le_min (le_add_of_nonneg_right (mul_nonneg h he)) hfits
  have hstored : (p.settled b.surplus).level - p.level ≤ b.surplus * p.efficiency := by
    rw [hlevel, sub_le_iff_le_add']
    exact min_le_left _ _
  obtain ⟨hdrawn, hle⟩ := drawnFor_eq he hstored0 hstored h
  rw [absorb?_of_charge? (charge?_settled hp h), positivePart_eq_max,
    max_eq_left (sub_nonneg.2 hle), hdrawn, settlement_of_nonneg hp h]
  -- nothing is drawn for nothing
  rcases hstored0.lt_or_eq with hpos | hzero
  · rw [if_pos hpos]
  · rw [← hzero, if_neg (lt_irrefl 0), zero_div]

theorem cover?_settled (hp : p.WellFormed) (h : 0 ≤ b.deficit) :
    p.cover? b = some (p.settlement (-b.deficit), p.settled (-b.deficit)) := by
  have hnonpos := neg_nonpos.2 h
  have hlevel := level_settled_of_nonpos (p := p) hnonpos
  have hreleased : 0 ≤ b.deficit - (p.level - (p.settled (-b.deficit)).level) := by
    rw [hlevel]
    linarith [le_max_left (p.level + -b.deficit) 0]
  rw [cover?_of_discharge? (discharge?_settled hp h), positivePart_eq_max, max_eq_left hreleased,
    settlement_of_nonpos hnonpos]
  congr 3 <;> ring

end Pool

/-- Under the default policy a step settles the energy above demand. -/
theorem Policy.dispatch?_settled {p : Pool ℚ} {b : Balance ℚ} (hp : p.WellFormed)
    (hh : 0 < b.hours) :
    Policy.default.dispatch? b p =
      some (p.settlement ((b.generation - b.demand) * b.hours),
        p.settled ((b.generation - b.demand) * b.hours)) := by
  cases hsurplus : b.hasSurplus with
  | true =>
      have hlt : b.demand < b.generation := of_decide_eq_true hsurplus
      have heq : b.surplus = (b.generation - b.demand) * b.hours := by
        rw [Balance.surplus, positivePart_eq_max, max_eq_left (by linarith)]
      rw [Policy.default.dispatch?_of_surplus hsurplus, ← heq]
      exact Pool.absorb?_settled hp (heq ▸ mul_nonneg (sub_nonneg.2 hlt.le) hh.le)
  | false =>
      have hle : b.generation ≤ b.demand := not_lt.1 (of_decide_eq_false hsurplus)
      have heq : -b.deficit = (b.generation - b.demand) * b.hours := by
        rw [Balance.deficit, positivePart_eq_max, max_eq_left (by linarith)]
        ring
      have hdeficit : 0 ≤ b.deficit := by
        rw [Balance.deficit, positivePart_eq_max]
        exact mul_nonneg (le_max_right _ _) hh.le
      rw [Policy.dispatch?_default hsurplus, ← heq]
      exact Pool.cover?_settled hp hdeficit

/-! ## Two parts -/

namespace Pool

variable {p : Pool ℚ} {x y : ℚ}

/-- Two energies of one sign leave the level that their sum leaves, since the pool saturates at one
end only. -/
theorem settled_add (hp : p.WellFormed) (h : 0 ≤ x * y) :
    (p.settled x).settled y = p.settled (x + y) := by
  have he : 0 ≤ p.efficiency := (isShare_iff.1 hp.isShare_efficiency).1
  have hlevel : ((p.settled x).settled y).level = (p.settled (x + y)).level := by
    rcases mul_nonneg_iff.1 h with ⟨hx, hy⟩ | ⟨hx, hy⟩
    · rw [level_settled_of_nonneg (hp.settled x) hy, level_settled_of_nonneg hp hx,
        level_settled_of_nonneg hp (add_nonneg hx hy)]
      have hmore : 0 ≤ y * p.efficiency := mul_nonneg hy he
      change min (min (p.level + x * p.efficiency) p.capacity + y * p.efficiency) p.capacity = _
      rw [← min_add_add_right, min_assoc, min_eq_right (by linarith : p.capacity ≤ _), add_assoc,
        add_mul]
    · rw [level_settled_of_nonpos hy, level_settled_of_nonpos hx,
        level_settled_of_nonpos (add_nonpos hx hy), ← max_add_add_right, max_assoc,
        max_eq_right (by linarith : 0 + y ≤ 0), add_assoc]
  exact congrArg (fun level => ({ p with level := level } : Pool ℚ)) hlevel

/-- The parts of what was exchanged add up. -/
theorem settlement_add (hp : p.WellFormed) (h : 0 ≤ x * y) :
    p.settlement x + (p.settled x).settlement y = p.settlement (x + y) := by
  rcases mul_nonneg_iff.1 h with ⟨hx, hy⟩ | ⟨hx, hy⟩
  · rw [settlement_of_nonneg hp hx, settlement_of_nonneg (hp.settled x) hy,
      settlement_of_nonneg hp (add_nonneg hx hy), settled_add hp h, Exchange.add_def]
    change (⟨_, _ + (y - _ / p.efficiency), _⟩ : Exchange ℚ) = _
    congr 1 <;> ring
  · rw [settlement_of_nonpos hx, settlement_of_nonpos hy, settlement_of_nonpos (add_nonpos hx hy),
      settled_add hp h, Exchange.add_def]
    congr 1 <;> ring

end Pool

end LocalGrid
