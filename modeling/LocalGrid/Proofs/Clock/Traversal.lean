import LocalGrid.Proofs.Clock.Steps
import Mathlib.Data.List.Chain

/-!
# Walks of a clock

A clock is moved by ticks and by runs to its end, and the timestamps of what is left can be taken at
once. All of these go on where the one before stopped. So the steps that they make, one after the
other, are those of the clock in the order of their indices, whatever the calls were.
-/

namespace LocalGrid.Clock

open Calendar

/-! ## Calls -/

inductive Call where
  /-- Makes one step, if there is one left. -/
  | tick
  /-- Makes all steps that are left. -/
  | run
  deriving DecidableEq, Repr

inductive Answer where
  | tick (step : Option (ℕ × Timestamp))
  | run (steps : List (ℕ × Timestamp × ℕ))
  deriving DecidableEq

def call? (c : Clock) : Call → Option (Answer × Clock)
  | .tick => c.tick?.map fun (step, c) => (.tick step, c)
  | .run => c.run?.map fun (steps, c) => (.run steps, c)

def calls? (c : Clock) : List Call → Option (List Answer × Clock)
  | [] => some ([], c)
  | call :: rest => do
    let (answer, c) ← c.call? call
    let (answers, c) ← c.calls? rest
    pure (answer :: answers, c)

def Answer.steps : Answer → List (ℕ × Timestamp)
  | .tick step => step.toList
  | .run steps => steps.map fun (i, t, _) => (i, t)

/-- The steps of a run come with the hours of their timestamps. -/
def Answer.HasHours : Answer → Prop
  | .tick _ => True
  | .run steps => ∀ i t hour, (i, t, hour) ∈ steps → hour = t.hour

def made (answers : List Answer) : List (ℕ × Timestamp) := answers.flatMap Answer.steps

/-- The steps that are made by calls, and then the timestamps that are left, counted on. -/
def walk (answers : List Answer) (rest : List Timestamp) : List (ℕ × Timestamp) :=
  made answers ++ (List.range' (made answers).length rest.length).zip rest

/-! ## Consecutive steps -/

section

variable (stamp : ℕ → Timestamp)

def stepsFrom (first count : ℕ) : List (ℕ × Timestamp) :=
  (List.range' first count).map fun i => (i, stamp i)

@[simp] theorem length_stepsFrom (first count : ℕ) :
    (stepsFrom stamp first count).length = count := by
  simp [stepsFrom]

theorem stepsFrom_append (first m n : ℕ) :
    stepsFrom stamp first m ++ stepsFrom stamp (first + m) n = stepsFrom stamp first (m + n) := by
  rw [stepsFrom, stepsFrom, stepsFrom, ← List.map_append, List.range'_append_1]

theorem map_fst_stepsFrom (first count : ℕ) :
    (stepsFrom stamp first count).map Prod.fst = List.range' first count := by
  simp [stepsFrom, Function.comp_def]

theorem isChain_stepsFrom {R : ℕ × Timestamp → ℕ × Timestamp → Prop} {first count : ℕ}
    (h : ∀ i, first ≤ i → i + 1 < first + count → R (i, stamp i) (i + 1, stamp (i + 1))) :
    (stepsFrom stamp first count).IsChain R := by
  rw [List.isChain_iff_getElem]
  intro i hi
  rw [length_stepsFrom] at hi
  simpa [stepsFrom, Nat.add_assoc] using h (first + i) (by omega) (by omega)

end

/-! ## Calls of a clock in the calendar -/

def Shows (c : Clock) (stamp : ℕ → Timestamp) : Prop :=
  ∀ i < c.total, c.timestamp? (UInt64.ofNat i) = some (stamp i)

namespace Shows

variable {c : Clock} {stamp : ℕ → Timestamp}

theorem remaining?_eq (h : c.Shows stamp) :
    c.remaining? = some (stepsFrom stamp c.current (c.total - c.current)) := by
  rw [remaining?_eq_mapM]
  refine mapM_eq_some_map fun i hi => ?_
  rw [List.mem_range'_1] at hi
  rw [h i (by omega), Option.map_some]

theorem tick?_eq (h : c.Shows stamp) (hlt : c.current < c.total) :
    c.tick? = some (some (c.current, stamp c.current), { c with current := c.current + 1 }) := by
  rw [tick?, if_pos hlt, h _ hlt, Option.map_some]

/-- A clock has no step left only at its end, where a tick does not move it. -/
theorem tick?_eq_none_iff (h : c.Shows stamp) (hle : c.current ≤ c.total) :
    c.tick? = some (none, c) ↔ c.current = c.total := by
  rcases hle.lt_or_eq with hlt | heq
  · simp [h.tick?_eq hlt, hlt.ne]
  · simp [tick?, heq]

theorem timestamps?_eq (h : c.Shows stamp) :
    c.timestamps? = some ((List.range' c.current (c.total - c.current)).map stamp) := by
  rw [timestamps?, h.remaining?_eq, Option.map_some, stepsFrom, List.map_map]
  rfl

/-- A call makes the next steps and moves the clock behind them. -/
theorem exists_call? (h : c.Shows stamp) (hle : c.current ≤ c.total) (call : Call) :
    ∃ answer count, c.call? call = some (answer, { c with current := c.current + count }) ∧
      c.current + count ≤ c.total ∧ answer.steps = stepsFrom stamp c.current count ∧
        answer.HasHours := by
  cases call with
  | tick =>
      rcases hle.lt_or_eq with hlt | heq
      · exact ⟨.tick (some (c.current, stamp c.current)), 1, by simp [call?, h.tick?_eq hlt], hlt,
          rfl, trivial⟩
      · exact ⟨.tick none, 0, by simp [call?, (h.tick?_eq_none_iff hle).2 heq], hle, rfl, trivial⟩
  | run =>
      have hend : c.finished = { c with current := c.current + (c.total - c.current) } := by
        rw [finished, max_eq_right hle, Nat.add_sub_cancel' hle]
      refine ⟨.run ((stepsFrom stamp c.current (c.total - c.current)).map fun step =>
        (step.1, step.2, step.2.hour)), c.total - c.current, ?_, (Nat.add_sub_cancel' hle).le,
        ?_, ?_⟩
      · rw [call?, run?, h.remaining?_eq, hend]
        rfl
      · simp [Answer.steps, Function.comp_def]
      · intro i t hour hmem
        obtain ⟨step, -, heq⟩ := List.mem_map.1 hmem
        cases heq
        rfl

/-- Calls make the next steps, one after the other, and move the clock behind them. -/
theorem exists_calls? (h : c.Shows stamp) (hle : c.current ≤ c.total) (calls : List Call) :
    ∃ answers count, c.calls? calls = some (answers, { c with current := c.current + count }) ∧
      c.current + count ≤ c.total ∧ made answers = stepsFrom stamp c.current count ∧
        ∀ answer ∈ answers, answer.HasHours := by
  induction calls generalizing c with
  | nil => exact ⟨[], 0, rfl, hle, rfl, by simp⟩
  | cons call calls ih =>
      obtain ⟨answer, m, hcall, hm, hsteps, hhours⟩ := h.exists_call? hle call
      have hnext : ({ c with current := c.current + m } : Clock).Shows stamp := h
      obtain ⟨answers, n, hcalls, hn, hmade, hall⟩ := ih hnext hm
      refine ⟨answer :: answers, m + n, ?_, by simpa [Nat.add_assoc] using hn, ?_, ?_⟩
      · simp [calls?, hcall, hcalls, Nat.add_assoc]
      · rw [made, List.flatMap_cons, hsteps, ← stepsFrom_append]
        exact congrArg _ hmade
      · exact List.forall_mem_cons.2 ⟨hhours, hall⟩

end Shows

/-! ## Walks -/

variable {start : Timestamp} {d : StepDuration} {total : ℕ}

/-- A walk through the steps of a clock: the answers of its calls, the clock after them, and the
timestamps that are then left. -/
structure IsWalk (start : Timestamp) (d : StepDuration) (total : ℕ) (answers : List Answer)
    (c : Clock) (rest : List Timestamp) : Prop where
  /-- Every index comes once, in order. -/
  indices_eq : (walk answers rest).map Prod.fst = List.range total
  isStep : ∀ i t, (i, t) ∈ walk answers rest → IsStep start d i t
  /-- Neighbours are one step length apart. -/
  isChain : (walk answers rest).IsChain fun s t => IsStep s.2 d 1 t.2
  hasHours : ∀ answer ∈ answers, answer.HasHours
  /-- A further tick finds no step, exactly if the calls have made them all. -/
  tick?_eq_none_iff : c.tick? = some (none, c) ↔ (made answers).length = total

/-- The steps that are made and those that are left are all steps of the clock. -/
theorem walk_eq {stamp : ℕ → Timestamp} {answers : List Answer} {count : ℕ} (hle : count ≤ total)
    (hmade : made answers = stepsFrom stamp 0 count) :
    walk answers ((List.range' count (total - count)).map stamp) = stepsFrom stamp 0 total := by
  have happend := stepsFrom_append stamp 0 count (total - count)
  rw [Nat.zero_add, Nat.add_sub_cancel' hle] at happend
  rw [walk, hmade, length_stepsFrom, List.length_map, List.length_range',
    ← List.map_prod_left_eq_zip]
  exact happend

/-- A clock whose steps all lie in the calendar visits each of them once, in order and with its own
timestamp, whatever calls it is moved by before the timestamps that are left are taken. -/
theorem calls_visit_each_step (hstart : start.IsValid) (hleap : start.isLeapSecond = false)
    (hrange : ∀ i < total, (start.addSeconds? (60 * d.minutes * i)).isSome = true)
    (calls : List Call) :
    ∃ answers c rest, (new start d total).calls? calls = some (answers, c) ∧
      c.timestamps? = some rest ∧ IsWalk start d total answers c rest := by
  let stamp (i : ℕ) : Timestamp := (start.addSeconds? (60 * d.minutes * i)).getD start
  have hstamp : ∀ i < total, start.addSeconds? (60 * d.minutes * i) = some (stamp i) :=
    fun i hi => (Option.getD_of_ne_none (Option.isSome_iff_ne_none.1 (hrange i hi)) _).symm
  have hstep : ∀ i < total, IsStep start d i (stamp i) := fun i hi =>
    isStep_of_addSeconds? hstart hleap (hstamp i hi)
  have hshows : (new start d total).Shows stamp := fun i hi => by
    have hindex := index_lt hstart hleap (hstamp i hi)
    rw [timestamp?_eq (by omega), hstamp i hi]
  obtain ⟨answers, count, hcalls, hle, hmade, hhours⟩ := hshows.exists_calls? (Nat.zero_le _) calls
  simp only [new, Nat.zero_add] at hcalls hle hmade
  have hafter : Shows ⟨start, d, count, total⟩ stamp := hshows
  have hwalk := walk_eq hle hmade
  refine ⟨answers, _, _, hcalls, hafter.timestamps?_eq, ?_⟩
  constructor
  · rw [hwalk, map_fst_stepsFrom, List.range_eq_range']
  · intro i t hmem
    rw [hwalk, stepsFrom, List.mem_map] at hmem
    obtain ⟨j, hj, heq⟩ := hmem
    obtain ⟨rfl, rfl⟩ := Prod.mk.inj heq
    exact hstep j (by simpa using hj)
  · rw [hwalk]
    exact isChain_stepsFrom stamp fun i _ hi =>
      (hstep i (by omega)).one (hstep (i + 1) (by omega))
  · exact hhours
  · rw [hafter.tick?_eq_none_iff hle, hmade, length_stepsFrom]

/-- Half past eleven in the evening of a leap day. -/
def leapEvening : Timestamp := ⟨⟨739250⟩, 84600, 0⟩

/-- A tick, a run to the end over midnight, and a tick that finds nothing. -/
theorem calls_visit_each_step_leapEvening : leapEvening.IsValid ∧
    leapEvening.isLeapSecond = false ∧
    (∀ i < 3, (leapEvening.addSeconds?
      (60 * StepDuration.quarterHourly.minutes * (i : ℕ))).isSome = true) ∧
    ∃ answers c rest,
      (new leapEvening .quarterHourly 3).calls? [.tick, .run, .tick] = some (answers, c) ∧
        answers = [.tick (some (0, leapEvening)),
          .run [(1, ⟨⟨739250⟩, 85500, 0⟩, 23), (2, ⟨⟨739251⟩, 0, 0⟩, 0)], .tick none] ∧
        c.timestamps? = some rest ∧ IsWalk leapEvening .quarterHourly 3 answers c rest := by
  have hstart : leapEvening.IsValid := ⟨⟨by decide, by decide, by decide⟩, by decide⟩
  have hrange : ∀ i < 3, (leapEvening.addSeconds?
      (60 * StepDuration.quarterHourly.minutes * (i : ℕ))).isSome = true := by decide +kernel
  have hfirst : ((new leapEvening .quarterHourly 3).calls? [.tick, .run, .tick]).map Prod.fst =
      some [.tick (some (0, leapEvening)),
        .run [(1, ⟨⟨739250⟩, 85500, 0⟩, 23), (2, ⟨⟨739251⟩, 0, 0⟩, 0)], .tick none] := by
    decide +kernel
  obtain ⟨answers, c, rest, hcalls, hrest, hwalk⟩ :=
    calls_visit_each_step hstart (by decide) hrange [.tick, .run, .tick]
  rw [hcalls] at hfirst
  exact ⟨hstart, by decide, hrange, answers, c, rest, hcalls, Option.some.inj hfirst, hrest, hwalk⟩

end LocalGrid.Clock
