import LocalGrid.Proofs.Simulation.Causality
import LocalGrid.Proofs.Simulation.ClosedGate
import LocalGrid.Proofs.Simulation.Separation

/-!
# Until the gate closes

A gate that is open does not act, and it stays open until a step ends with a full battery: an empty
battery opens it, which changes nothing before that. So a run with a gate and the run without one
go through the same steps up to the first that fills the battery, which is itself one of them, since
the gate acts from the next step on.
-/

namespace LocalGrid.Simulation

open Quantity RoundedQuantity

variable {σ τ α ω : Type}

def Config.ungated (c : Config α) : Config α := { c with gating := false }

def Rules.ungated (rules : Rules α) : Rules α := { rules with gating := false }

variable [Quantity α]

/-- The first step that ends with a full battery, or the last step if there is none. -/
def Result.fillStep (result : Result α) (capacity : α) : ℕ :=
  min (result.batteryLevels.findIdx fun level => decide (capacity ≤ level))
    (result.records.length - 1)

theorem Result.not_full_of_lt_fillStep {result : Result α} {capacity : α} {k : ℕ} {r : Record α}
    (hk : k < result.fillStep capacity) (hr : result.records[k]? = some r) :
    ¬ capacity ≤ r.batteryLevel := by
  have hnot := List.not_of_lt_findIdx (lt_min_iff.1 hk).1
  obtain ⟨hlt, rfl⟩ := List.getElem?_eq_some_iff.1 hr
  simpa [batteryLevels] using hnot

namespace Rules

variable {rules : Rules α} {index : ℕ} {xs : List (StepInput α)} {x : StepInput α} {s t : State α}
  {r : Record α} {rs : List (Record α)}

/-- Behind an open gate a step is what it is without a gate, up to the gate after it. -/
theorem step?_ungated (hopen : s.off = false) (h : rules.step? index x s = some (r, t)) :
    rules.ungated.step? index x s = some (r, { t with off := false }) := by
  simp only [step?, Option.bind_eq_bind, Option.bind_eq_some_iff, Option.pure_def,
    Option.some.injEq, Prod.mk.injEq, Prod.exists, ungated, hopen, Bool.and_false] at h ⊢
  obtain ⟨exchange, battery, hdispatch, heat, thermal, hthermal, rfl, rfl⟩ := h
  exact ⟨exchange, battery, hdispatch, heat, thermal, hthermal, rfl, rfl⟩

/-- The gate stays open after a step that does not fill the battery. -/
theorem Step.stays_open (h : rules.Step index x s r t) (hopen : s.off = false)
    (hnotfull : ¬ s.battery.capacity ≤ r.batteryLevel) : t.off = false := by
  have hcapacity := (rules.policy.dispatch?_keeps h.dispatch?_eq).1
  rw [h.batteryLevel_eq, ← hcapacity] at hnotfull
  rw [h.off_eq, hopen]
  split_ifs
  · rw [← Bool.not_eq_true, nextOff_eq_true_iff]
    rintro (hfull | ⟨-, hoff⟩)
    · exact hnotfull hfull
    · exact Bool.false_ne_true hoff
  · rfl

/-- Steps of which none but the last fills the battery do not notice an open gate. -/
theorem steps?_ungated (h : rules.steps? index xs s = some rs) (hopen : s.off = false)
    (hnotfull : ∀ r ∈ rs.dropLast, ¬ s.battery.capacity ≤ r.batteryLevel) :
    rules.ungated.steps? index xs s = some rs ∧ ∀ r ∈ rs, r.generationOff = false := by
  induction xs generalizing index s rs with
  | nil =>
      obtain rfl : [] = rs := Option.some.inj h
      exact ⟨rfl, by simp⟩
  | cons x xs ih =>
      simp only [steps?, Option.bind_eq_bind, Option.bind_eq_some_iff, Option.pure_def,
        Option.some.injEq, Prod.exists] at h ⊢
      obtain ⟨r, t, hstep?, rest, hrest, rfl⟩ := h
      have hstep := step_of_step? hstep?
      have hr : r.generationOff = false := by rw [hstep.generationOff_eq, hopen, Bool.and_false]
      cases xs with
      | nil =>
          obtain rfl : [] = rest := Option.some.inj hrest
          exact ⟨⟨r, _, step?_ungated hopen hstep?, [], rfl, rfl⟩, by simpa using hr⟩
      | cons y ys =>
          obtain ⟨-, -, hlength, -⟩ := exists_states hrest
          have hne : rest ≠ [] := by
            rintro rfl
            simp at hlength
          rw [List.dropLast_cons_of_ne_nil hne] at hnotfull
          have hopen' := hstep.stays_open hopen (hnotfull r List.mem_cons_self)
          have hcapacity := (rules.policy.dispatch?_keeps hstep.dispatch?_eq).1
          obtain ⟨hsteps, hoff⟩ := ih hrest hopen' fun q hq => by
            rw [hcapacity]
            exact hnotfull q (List.mem_cons_of_mem _ hq)
          have ht : { t with off := false } = t := by rw [← hopen']
          refine ⟨⟨r, t, ?_, rest, hsteps, rfl⟩, ?_⟩
          · rw [step?_ungated hopen hstep?, ht]
          · exact List.forall_mem_cons.2 ⟨hr, hoff⟩

end Rules

namespace Config

/-- A gate is only checked where there is one. -/
theorem Accepted.ungated {c : Config α} (h : c.Accepted) : c.ungated.Accepted :=
  { h with gate := fun hgating => absurd hgating Bool.false_ne_true }

variable [Quantity ω] [Widening α ω] {c : Config α} {w : Weather σ α} {v : Weather τ α} {s s' : σ}
  {t t' : τ} {result other : Result α} {n : ℕ}

theorem take_records_ungated (h : c.carryOut? w s = some (result, s'))
    (h' : c.ungated.carryOut? v t = some (other, t')) (hdaylight : w.daylight = v.daylight)
    (hdraws : (Random.draws w.draw c.stepCount s).1 = (Random.draws v.draw c.stepCount t).1)
    (hnotfull : ∀ r ∈ result.records.take n, ¬ positivePart c.batteryCapacity ≤ r.batteryLevel) :
    other.records.take (n + 1) = result.records.take (n + 1) ∧
      ∀ r ∈ result.records.take (n + 1), r.generationOff = false := by
  obtain ⟨p, stamps, records, hp, hstamps, hrecords, rfl⟩ := carryOut?_eq_some_iff.1 h
  obtain ⟨p', stamps', records', hp', hstamps', hrecords', rfl⟩ := carryOut?_eq_some_iff.1 h'
  obtain ⟨u, hp''⟩ := profiles?_congr hdaylight hdraws hp
  obtain ⟨rfl, -⟩ := Prod.mk.inj (Option.some.inj (hp''.symm.trans hp'))
  obtain rfl : stamps = stamps' := Option.some.inj (hstamps.symm.trans hstamps')
  have hsub : ∀ r ∈ (records.take (n + 1)).dropLast,
      ¬ c.initialState.battery.capacity ≤ r.batteryLevel := by
    intro r hr
    refine hnotfull r ?_
    rw [List.dropLast_eq_take, List.take_take] at hr
    refine List.take_subset_take_left _ ?_ hr
    rw [List.length_take]
    omega
  obtain ⟨hsteps, hoff⟩ := Rules.steps?_ungated (Rules.steps?_take hrecords (n + 1)) rfl hsub
  have htake := Rules.steps?_take hrecords' (n + 1)
  exact ⟨Option.some.inj (htake.symm.trans hsteps), hoff⟩

end Config

variable [RoundedQuantity α] [Quantity ω] [Widening α ω] {c : Config α} {w : Weather σ α}
  {v : Weather τ α} {s s' : σ} {t : τ} {result : Result α}

/-- In the same weather a run behind a gate and the run without one have the same records up to the
first step that fills the battery, or all of them if there is none, and in these the gate keeps
nothing off. -/
theorem records_until_full (hgating : c.gating = true) (h : simulate c w s = (.ok result, s'))
    (hdaylight : w.daylight = v.daylight)
    (hdraws : (Random.draws w.draw c.stepCount s).1 = (Random.draws v.draw c.stepCount t).1) :
    ∃ other t', simulate c.ungated v t = (.ok other, t') ∧
      ∀ k ≤ result.fillStep c.batteryCapacity, ∃ r, result.records[k]? = some r ∧
        other.records[k]? = some r ∧ r.generationOff = false := by
  obtain ⟨hvalidate, hcarry⟩ := simulate_eq_ok h
  have haccepted := Config.accepted_of_validate hvalidate
  obtain ⟨p, stamps, -, hp, -, -, -⟩ := Config.carryOut?_eq_some_iff.1 hcarry
  obtain ⟨u, hp'⟩ := Config.profiles?_congr hdaylight hdraws hp
  obtain ⟨other, t', hcarry'⟩ := Config.exists_carryOut?_iff (c := c.ungated).2
    (Option.isSome_of_eq_some hp')
  have hcapacity : positivePart c.batteryCapacity = c.batteryCapacity :=
    positivePart_of_pos ((not_le_iff (isNumber_of_isFinite haccepted.batteryCapacity.isFinite)
      isNumber_zero).1 (haccepted.gate hgating))
  have hnotfull : ∀ r ∈ result.records.take (result.fillStep c.batteryCapacity),
      ¬ positivePart c.batteryCapacity ≤ r.batteryLevel := by
    intro r hr
    obtain ⟨k, hk⟩ := List.getElem?_of_mem hr
    rw [List.getElem?_take] at hk
    split_ifs at hk with hlt
    rw [hcapacity]
    exact Result.not_full_of_lt_fillStep hlt hk
  obtain ⟨htake, hoff⟩ := Config.take_records_ungated hcarry hcarry' hdaylight hdraws hnotfull
  refine ⟨other, t', simulate_of_carryOut? (Config.validate_of_accepted haccepted.ungated) hcarry',
    ?_⟩
  intro k hk
  have hlt : k < result.records.length := by
    have hpos := length_records h ▸ Nat.pos_of_ne_zero haccepted.stepCount_ne_zero
    have hle := hk.trans (min_le_right _ _)
    omega
  have hr := List.getElem?_eq_getElem hlt
  have hk' : k < result.fillStep c.batteryCapacity + 1 := Nat.lt_succ_of_le hk
  have htake' := congrArg (·[k]?) htake
  simp only [List.getElem?_take_of_lt hk', hr] at htake'
  exact ⟨_, hr, htake', hoff _ (List.mem_of_getElem? ((List.getElem?_take_of_lt hk').trans hr))⟩

/-- A run with less CHP, which fills the battery in its fourth hour. -/
def lateFill : Config Float32 :=
  { sampleConfig with
    chpCapacity := 30
    demand := [0, 20, 40, 0, 40, 20] }

/-- Without its gate the run goes on generating after that hour, and is the same up to it. -/
theorem records_until_full_late : ∃ result other s' t',
    simulate lateFill Weather.standard (Wind.replay []) = (.ok result, s') ∧
      result.batteryLevels = [30, 40, 30, 50, 10, 0] ∧
      simulate lateFill.ungated Weather.standard (Wind.replay [0]) = (.ok other, t') ∧
      other.batteryLevels = [30, 40, 30, 50, 40, 50] ∧
      result.fillStep lateFill.batteryCapacity = 3 ∧
      ∀ k ≤ result.fillStep lateFill.batteryCapacity, ∃ r, result.records[k]? = some r ∧
        other.records[k]? = some r ∧ r.generationOff = false := by
  have hgated : (simulate lateFill Weather.standard (Wind.replay [])).1.toOption.any (fun result =>
      decide (result.batteryLevels = [30, 40, 30, 50, 10, 0] ∧
        result.fillStep lateFill.batteryCapacity = 3)) = true := by
    decide +kernel
  have hrun : (simulate lateFill.ungated Weather.standard (Wind.replay [0])).1.toOption.any
      (fun result => decide (result.batteryLevels = [30, 40, 30, 50, 40, 50])) = true := by
    decide +kernel
  obtain ⟨result, h, hresult⟩ := exists_simulate_eq hgated
  obtain ⟨hlevels, hfill⟩ := of_decide_eq_true hresult
  obtain ⟨other, t', hother, hrecords⟩ := records_until_full rfl h (v := Weather.standard)
    (t := Wind.replay [0]) rfl (by decide +kernel)
  obtain ⟨ungated, hungated, hlevels'⟩ := exists_simulate_eq hrun
  obtain rfl : ungated = other := Except.ok.inj (Prod.mk.inj (hungated.symm.trans hother)).1
  exact ⟨result, ungated, _, t', h, hlevels, hother, of_decide_eq_true hlevels', hfill, hrecords⟩

end LocalGrid.Simulation
