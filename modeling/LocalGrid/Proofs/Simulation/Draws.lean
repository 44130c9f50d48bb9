import LocalGrid.Proofs.Quantity.Special
import LocalGrid.Proofs.Simulation.Separation

/-!
# The draws of a run

Weather that writes down what is drawn from it shows how much wind a run takes. An accepted run with
a turbine takes one draw for each of its steps, in their order, and no other run takes any. The
output of the turbine in a step is read from the draw of this step, and from no other part of the
configuration than the wind capacity and the limit on the wind.
-/

namespace LocalGrid

open Quantity

variable {σ α ω : Type}

/-- Weather that keeps its draws beside the state of the wind, in the order in which they are
taken. -/
def Weather.logged (w : Weather σ α) : Weather (σ × List α) α where
  daylight := w.daylight
  draw := fun (s, log) => ((w.draw s).1, (w.draw s).2, log ++ [(w.draw s).1])

theorem Weather.draws_logged (w : Weather σ α) (n : ℕ) (s : σ) (log : List α) :
    Random.draws w.logged.draw n (s, log) =
      ((Random.draws w.draw n s).1, (Random.draws w.draw n s).2,
        log ++ (Random.draws w.draw n s).1) := by
  induction n generalizing s log with
  | zero => simp [Random.draws]
  | succ n ih =>
      have hdraw : w.logged.draw (s, log) =
        ((w.draw s).1, (w.draw s).2, log ++ [(w.draw s).1]) := rfl
      simp [Random.draws, hdraw, ih]

namespace Simulation

def Config.drawCount [Quantity α] (c : Config α) : ℕ := if c.useWind then c.stepCount else 0

variable [Quantity α] {c : Config α} {w : Weather σ α} {s s' : σ}

theorem Config.windOutputs_snd :
    (c.windOutputs w c.stepCount s).2 = (Random.draws w.draw c.drawCount s).2 := by
  unfold windOutputs drawCount
  split_ifs <;> rfl

/-- The outputs of a turbine in use are read from the draws, one from each. -/
theorem Config.windOutputs_of_use (huse : c.useWind = true) :
    (c.windOutputs w c.stepCount s).1 = (Random.draws w.draw c.drawCount s).1.map
      fun x => installed c.windCapacity * Quantity.abs x := by
  rw [windOutputs, drawCount, if_pos huse, if_pos huse]
  rfl

variable [Quantity ω] [Widening α ω] {result : Result α}

/-- A run with a result takes its draws, and writing them down changes nothing else. -/
theorem simulate_logged (h : simulate c w s = (.ok result, s')) :
    s' = (Random.draws w.draw c.drawCount s).2 ∧
      simulate c w.logged (s, []) = (.ok result, s', (Random.draws w.draw c.drawCount s).1) := by
  obtain ⟨hvalidate, hcarry⟩ := simulate_eq_ok h
  have hs' : s' = (Random.draws w.draw c.drawCount s).2 := by
    rw [Config.state_of_carryOut? hcarry, Config.windOutputs_snd]
  have hdraws : (Random.draws w.draw c.stepCount s).1 =
      (Random.draws w.logged.draw c.stepCount (s, [])).1 := by
    rw [Weather.draws_logged]
  obtain ⟨t', hlogged⟩ := Config.carryOut?_congr (w := w) (v := w.logged) rfl hdraws hcarry
  refine ⟨hs', ?_⟩
  rw [simulate_of_carryOut? hvalidate hlogged, Config.state_of_carryOut? hlogged,
    Config.windOutputs_snd, Weather.draws_logged, hs', List.nil_append]

/-- The wind of a record is the entry of the limited outputs, unless the gate is closed. -/
theorem wind_of_simulate (h : simulate c w s = (.ok result, s')) (huse : c.useWind = true) :
    ∃ ys, limited? c.ramp.wind c.rampRate ((Random.draws w.draw c.drawCount s).1.map
        fun x => installed c.windCapacity * Quantity.abs x) = some ys ∧
      ∀ (k : ℕ) (r : Record α), result.records[k]? = some r →
        (r.generationOff = false → ys[k]? = some r.wind) ∧
        (r.generationOff = true → r.wind = 0) := by
  obtain ⟨p, states, hfinished⟩ := exists_finished h
  obtain ⟨stamps, hstamps, -, hwind, -⟩ := Config.profiles?_eq_some_iff.1 hfinished.profiles?_eq
  rw [Config.length_clock_timestamps? hstamps, Config.windOutputs_of_use huse] at hwind
  refine ⟨p.wind, hwind, fun k r hr => ?_⟩
  obtain ⟨x, hx, hstep⟩ := hfinished.step hr
  rw [hstep.wind_eq]
  constructor
  · intro hoff
    rw [hoff, if_neg Bool.false_ne_true, hx.wind_eq]
  · intro hoff
    rw [hoff, if_pos rfl]

/-! ## Single precision -/

/-- What does not break down takes a draw for every step if it is accepted and its turbine is in
use, and no draw otherwise. The wind of a step with an open gate is the output that is made from the
draw of the step, limited if the wind is. A capacity that is the negative zero counts as zero. -/
theorem draws_one_per_step {c : Config Float32} {w : Weather σ Float32} {s : σ}
    (h : (simulate c w s).1 ≠ .error .breakdown) :
    ∃ taken, simulate c w.logged (s, []) = ((simulate c w s).1, (simulate c w s).2, taken) ∧
      taken.length = (if c.validate = .ok () ∧ c.useWind = true then c.stepCount else 0) ∧
      Random.draws w.draw taken.length s = (taken, (simulate c w s).2) ∧
      ∀ result, (simulate c w s).1 = .ok result → c.useWind = true →
        (installed c.windCapacity = c.windCapacity ∨
          c.windCapacity = -0 ∧ installed c.windCapacity = 0) ∧
        ∃ ys, limited? c.ramp.wind c.rampRate
            (taken.map fun x => installed c.windCapacity * Quantity.abs x) = some ys ∧
          ∀ (k : ℕ) (r : Record Float32), result.records[k]? = some r →
            (r.generationOff = false → ys[k]? = some r.wind) ∧
            (r.generationOff = true → r.wind = 0) := by
  cases hvalidate : c.validate with
  | error r =>
      have hrejected : ∀ {τ : Type} (v : Weather τ Float32) (t : τ),
          simulate c v t = (.error (.rejected r), t) := by
        intro τ v t
        simp [simulate, hvalidate]
      rw [hrejected, hrejected]
      exact ⟨[], rfl, by simp, rfl, fun result hresult => by simp at hresult⟩
  | ok u =>
      cases hcarry : c.carryOut? w s with
      | none => exact absurd (by simp [simulate, hvalidate, hcarry]) h
      | some out =>
          have hrun := simulate_of_carryOut? hvalidate hcarry
          obtain ⟨hstate, hlogged⟩ := simulate_logged hrun
          have hlength := Random.length_draws w.draw c.drawCount s
          have hcapacity := PackedQuantity.positivePart_eq_or
            (nonneg_of_isAmount (Config.accepted_of_validate hvalidate).windCapacity)
          refine ⟨_, by rw [hlogged, hrun], ?_, ?_, ?_⟩
          · rw [hlength]
            simp [Config.drawCount]
          · rw [hlength, hrun, hstate]
          · intro result hresult huse
            rw [hrun] at hresult
            obtain rfl := Except.ok.inj hresult
            exact ⟨hcapacity, wind_of_simulate hrun huse⟩

def rampedConfig : Config Float32 :=
  { sampleConfig with
    windCapacity := 10
    rampRate := 4 }

/-- Six draws are taken for six steps, and the ones behind the closed gate are not saved for later
steps: the fifth record has the fifth entry. -/
theorem draws_one_per_step_gated : ∃ result s' ys,
    simulate rampedConfig Weather.standard.logged (Wind.replay [0.5, -2], []) =
      (.ok result, s', [0.5, -2, 0.5, -2, 0.5, -2]) ∧
    result.records.map (·.wind) = [5, 0, 0, 0, 5, 0] ∧
    limited? true 4 ([0.5, -2, 0.5, -2, 0.5, -2].map
      fun x => installed 10 * Quantity.abs x) = some ys ∧
    ∀ (k : ℕ) (r : Record Float32), result.records[k]? = some r →
      (r.generationOff = false → ys[k]? = some r.wind) ∧ (r.generationOff = true → r.wind = 0) := by
  obtain ⟨result, hrun, hwind⟩ := exists_simulate_eq (c := rampedConfig) (w := Weather.standard)
    (s := Wind.replay [0.5, -2])
    (P := fun result : Result Float32 =>
      decide (result.records.map (·.wind) = [5, 0, 0, 0, 5, 0]))
    (by decide +kernel)
  obtain ⟨taken, hlogged, hlength, hdraws, hall⟩ := draws_one_per_step (c := rampedConfig)
    (w := Weather.standard) (s := Wind.replay [0.5, -2]) (by rw [hrun]; simp)
  have hsix : taken.length = 6 := hlength.trans (by decide +kernel)
  have htaken : taken = [0.5, -2, 0.5, -2, 0.5, -2] := by
    rw [hsix] at hdraws
    exact (congrArg Prod.fst hdraws).symm.trans (by decide +kernel)
  obtain ⟨-, ys, hys, hrecords⟩ := hall result (by rw [hrun]) rfl
  rw [htaken] at hlogged hys
  rw [hrun] at hlogged
  exact ⟨result, _, ys, hlogged, of_decide_eq_true hwind, hys, hrecords⟩

end Simulation

end LocalGrid
