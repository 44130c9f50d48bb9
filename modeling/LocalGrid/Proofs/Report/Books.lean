import LocalGrid.Proofs.Simulation.Balance
import LocalGrid.Proofs.Simulation.Completion
import LocalGrid.Report.Basic

/-!
# The books of a run

The totals of a report are sums over the records, and one more record adds its own part to each of
them. In exact arithmetic the parts of a step balance, and so do the totals after any number of
steps: what was charged and not discharged is in the battery, and the energy generated above demand
was charged with its losses, discharged, or exchanged with the grid.
-/

namespace LocalGrid

open Quantity Simulation

/-! ## One more record -/

section

variable {α : Type} [Quantity α]

theorem total_concat (f : Record α → α) (rs : List (Record α)) (r : Record α) :
    total f (rs ++ [r]) = total f rs + f r :=
  List.foldl_concat _ _ _ _

theorem totalCharged_concat (rs : List (Record α)) (r : Record α) :
    totalCharged (rs ++ [r]) =
      if 0 < r.batteryChange then totalCharged rs + r.batteryChange else totalCharged rs :=
  List.foldl_concat _ _ _ _

theorem totalDischarged_concat (rs : List (Record α)) (r : Record α) :
    totalDischarged (rs ++ [r]) =
      if 0 < r.batteryChange then totalDischarged rs else totalDischarged rs - r.batteryChange :=
  List.foldl_concat _ _ _ _

end

/-- The books of some records, after which the battery stands at a level. -/
structure Books (efficiency hours level : ℚ) (rs : List (Record ℚ)) : Prop where
  level_eq : totalCharged rs - totalDischarged rs = level
  energy_eq : total (fun r => r.generation * hours) rs - total (fun r => r.demand * hours) rs =
    totalCharged rs / efficiency - totalDischarged rs + total (·.gridExport) rs -
      total (·.gridImport) rs

namespace Books

variable {efficiency hours level : ℚ} {rs : List (Record ℚ)} {r : Record ℚ}

theorem nil : Books efficiency hours 0 [] := by
  constructor <;> simp [total, totalCharged, totalDischarged]

/-- A balanced step keeps the books balanced. -/
theorem concat (h : Books efficiency hours level rs)
    (hchange : r.batteryChange = r.batteryLevel - level)
    (henergy : (r.generation - r.demand) * hours =
      (⟨r.batteryChange, r.gridExport, r.gridImport⟩ : Exchange ℚ).drawn efficiency -
        (⟨r.batteryChange, r.gridExport, r.gridImport⟩ : Exchange ℚ).released +
        r.gridExport - r.gridImport) :
    Books efficiency hours r.batteryLevel (rs ++ [r]) := by
  obtain ⟨hlevel, hbooks⟩ := h
  simp only [Exchange.drawn, Exchange.released] at henergy
  constructor
  · rw [totalCharged_concat, totalDischarged_concat]
    split_ifs <;> linarith
  · simp only [total_concat, totalCharged_concat, totalDischarged_concat]
    rcases lt_trichotomy r.batteryChange 0 with hneg | hzero | hpos
    · rw [if_neg hneg.not_gt, if_pos hneg] at henergy
      rw [if_neg hneg.not_gt, if_neg hneg.not_gt]
      linarith
    · rw [if_neg hzero.not_gt, if_neg hzero.not_lt] at henergy
      rw [if_neg hzero.not_gt, if_neg hzero.not_gt]
      linarith
    · rw [if_pos hpos, if_neg hpos.not_gt] at henergy
      rw [if_pos hpos, if_pos hpos, add_div]
      linarith

end Books

namespace Simulation

variable {σ : Type} {c : Config ℚ} {w : Weather σ ℚ} {s s' : σ} {result : Result ℚ}
  {p : Profiles ℚ} {states : ℕ → State ℚ} {k : ℕ}

/-- The books are balanced after any number of steps. -/
theorem Finished.books (h : Finished c w s result s' p states) (hk : k ≤ result.records.length) :
    Books c.batteryEfficiency c.hours (result.levelBefore k) (result.records.take k) := by
  induction k with
  | zero => exact Books.nil
  | succ k ih =>
      have hr := List.getElem?_eq_getElem (l := result.records) (i := k) hk
      obtain ⟨-, -, hchange⟩ := h.battery_record (finitePowers_exact c result p) hr
      obtain ⟨x, -, hstep⟩ := h.step hr
      have henergy := h.energy_step hr
      rw [hstep.surplus_eq] at henergy
      have hbooks := (ih (Nat.le_of_succ_le hk)).concat hchange henergy
      have hlevel : result.levelBefore (k + 1) = (result.records[k]).batteryLevel := by
        rw [← h.level_before hk, h.level_after hr]
      rwa [hlevel, List.take_add_one, hr, Option.toList_some]

/-- The last record of a run reports the level after its last step. -/
theorem Finished.level_last (h : Finished c w s result s' p states) {r : Record ℚ}
    (hr : result.records.getLast? = some r) :
    r.batteryLevel = result.levelBefore result.records.length := by
  rw [List.getLast?_eq_getElem?] at hr
  have hlength := (List.getElem?_eq_some_iff.1 hr).1
  rw [← h.level_after hr, Nat.sub_add_cancel (by omega), h.level_before le_rfl]

/-- In exact arithmetic the report of a run agrees with itself and with the battery: what was
charged and not discharged is the last level, and generation above demand is what was charged, with
its losses, less what was discharged, plus the export, less the import. A battery that stores
nothing is no exception, since then nothing was charged. -/
theorem books_balance (h : simulate c w s = (.ok result, s')) :
    let report := Report.ofResult result
    (∃ r, result.records.getLast? = some r ∧
      report.charged - report.discharged = r.batteryLevel) ∧
    report.generation - report.demand =
      report.charged / c.batteryEfficiency - report.discharged + report.gridExport -
        report.gridImport ∧
    report.discharged ≤ report.charged := by
  obtain ⟨p, states, hfinished⟩ := exists_finished h
  have hrecords : result.records ≠ [] := by
    rw [← List.length_pos_iff, length_records h]
    exact Nat.pos_of_ne_zero hfinished.accepted.stepCount_ne_zero
  have hlast := List.getLast?_eq_some_getLast hrecords
  obtain ⟨hlevel, henergy⟩ := hfinished.books le_rfl
  rw [List.take_length] at hlevel henergy
  rw [← hfinished.level_last hlast] at hlevel
  refine ⟨⟨_, hlast, hlevel⟩, ?_, ?_⟩
  · rw [← hfinished.hours_eq] at henergy
    exact henergy
  · obtain ⟨k, hk⟩ := List.getElem?_of_mem (List.getLast_mem hrecords)
    obtain ⟨hnonneg, -⟩ := hfinished.battery_record (finitePowers_exact c result p) hk
    exact sub_nonneg.1 (hlevel ▸ hnonneg)

/-- Four quarters of an hour with a lossy battery behind a gate: it is filled, drained in two
steps, and charged again. -/
def booksConfig : Config ℚ :=
  { Config.new .quarterHourly ⟨⟨738000⟩, 0, 0⟩ [0, 12, 40, 20] with
    chpCapacity := 60
    batteryCapacity := 5
    batteryEfficiency := 1 / 2 }

/-- In these quarters as much is charged with losses as is generated and not exported. -/
theorem books_balance_sample : ∃ result,
    simulate booksConfig ⟨fun _ => 0, fun s => (0, s)⟩ () = (.ok result, ()) ∧
      result.batteryChanges = [5, -3, -2, 5] ∧
      let report := Report.ofResult result
      (∃ r, result.records.getLast? = some r ∧
        report.charged - report.discharged = r.batteryLevel) ∧
      report.generation - report.demand =
        report.charged / booksConfig.batteryEfficiency - report.discharged +
          report.gridExport - report.gridImport ∧
      report.discharged ≤ report.charged := by
  obtain ⟨result, h, hchanges⟩ := exists_simulate_eq (c := booksConfig)
    (w := ⟨fun _ => 0, fun s => (0, s)⟩) (s := ())
    (P := fun result : Result ℚ => decide (result.batteryChanges = [5, -3, -2, 5]))
    (by decide +kernel)
  exact ⟨result, h, of_decide_eq_true hchanges, books_balance h⟩

end Simulation

end LocalGrid
