import Mathlib.Algebra.Order.Field.Rat
import LocalGrid.Proofs.Report.Books

/-!
# The days of a report

The sums of all days are kept side by side while the records are walked through once. What is kept
after any number of records is that every day of them has its sums, once and in order, and that the
sums of a day are those of the records of this day alone. The days divide the records, so in exact
arithmetic their sums add up to the totals.
-/

namespace LocalGrid

open Quantity Simulation

theorem Calendar.Day.eq_iff {a b : Calendar.Day} : a = b ↔ a.number = b.number := by
  cases a
  cases b
  simp

/-! ## The sums of one day -/

def recordsOn {α : Type} (day : Calendar.Day) (rs : List (Record α)) : List (Record α) :=
  rs.filter fun r => r.timestamp.day = day

theorem recordsOn_concat {α : Type} (day : Calendar.Day) (rs : List (Record α)) (r : Record α) :
    recordsOn day (rs ++ [r]) =
      if r.timestamp.day = day then recordsOn day rs ++ [r] else recordsOn day rs := by
  by_cases h : r.timestamp.day = day <;> simp [recordsOn, h]

section

variable {α : Type} [Quantity α] {hours generation demand : α} {day : Calendar.Day}
  {days : List (DaySums α)} {rs : List (Record α)} {r : Record α} {s : DaySums α}

def sumsOn (hours : α) (rs : List (Record α)) (day : Calendar.Day) : DaySums α where
  day := day
  generation := total (fun r => r.generation * hours) (recordsOn day rs)
  demand := total (fun r => r.demand * hours) (recordsOn day rs)

theorem sumsOn_concat_of_ne (h : r.timestamp.day ≠ day) :
    sumsOn hours (rs ++ [r]) day = sumsOn hours rs day := by
  simp only [sumsOn, recordsOn_concat, if_neg h]

/-- One more record adds its energies to its own day. -/
theorem sumsOn_concat_self (hours : α) (rs : List (Record α)) (r : Record α) :
    sumsOn hours (rs ++ [r]) r.timestamp.day =
      ⟨r.timestamp.day, (sumsOn hours rs r.timestamp.day).generation + r.generation * hours,
        (sumsOn hours rs r.timestamp.day).demand + r.demand * hours⟩ := by
  simp only [sumsOn, recordsOn_concat, if_true, total_concat]

theorem sumsOn_of_forall_ne (h : ∀ r ∈ rs, r.timestamp.day ≠ day) :
    sumsOn hours rs day = ⟨day, 0, 0⟩ := by
  have hnone : recordsOn day rs = [] := by
    rw [recordsOn, List.filter_eq_nil_iff]
    simpa using h
  rw [sumsOn, hnone]
  rfl

/-! ## The sums of all days -/

/-- Days in falling order, each once. -/
def IsFalling (days : List (DaySums α)) : Prop :=
  days.Pairwise fun later earlier => earlier.day.number < later.day.number

theorem exists_mem_addToDay {k : Calendar.Day} :
    (∃ s ∈ addToDay day generation demand days, s.day = k) ↔
      k = day ∨ ∃ s ∈ days, s.day = k := by
  induction days with
  | nil => simp [addToDay, eq_comm]
  | cons d rest ih =>
      rw [addToDay]
      split_ifs with hlt heq
      · simp [eq_comm]
      · have hday : d.day = day := Calendar.Day.eq_iff.2 heq
        simp [hday, eq_comm]
      · simp only [List.mem_cons, exists_eq_or_imp, ih]
        exact or_left_comm

theorem isFalling_addToDay (h : IsFalling days) :
    IsFalling (addToDay day generation demand days) := by
  induction days with
  | nil => simp [IsFalling, addToDay]
  | cons d rest ih =>
      obtain ⟨hbelow, hrest⟩ := List.pairwise_cons.1 h
      rw [addToDay]
      split_ifs with hlt heq
      · refine List.pairwise_cons.2 ⟨fun s hs => ?_, h⟩
        rcases List.mem_cons.1 hs with rfl | hs
        · exact hlt
        · exact (hbelow s hs).trans hlt
      · exact List.pairwise_cons.2 ⟨hbelow, hrest⟩
      · refine List.pairwise_cons.2 ⟨fun s hs => ?_, ih hrest⟩
        rcases exists_mem_addToDay.1 ⟨s, hs, rfl⟩ with hday | ⟨t, ht, hday⟩
        · rw [hday]
          omega
        · rw [← hday]
          exact hbelow t ht

/-- Energies are added to the sums of their day, or to zero if it has none. Other days keep their
sums. -/
theorem eq_of_mem_addToDay (h : IsFalling days) (hs : s ∈ addToDay day generation demand days) :
    (s ∈ days ∧ s.day ≠ day) ∨ ∃ x y, s = ⟨day, x + generation, y + demand⟩ ∧
      (⟨day, x, y⟩ ∈ days ∨ (∀ d ∈ days, d.day ≠ day) ∧ x = 0 ∧ y = 0) := by
  induction days with
  | nil => exact Or.inr ⟨0, 0, List.mem_singleton.1 hs, Or.inr ⟨by simp, rfl, rfl⟩⟩
  | cons d rest ih =>
      obtain ⟨hbelow, hrest⟩ := List.pairwise_cons.1 h
      rw [addToDay] at hs
      split_ifs at hs with hlt heq
      · -- all days of the list come before the new one
        have hne : ∀ t ∈ d :: rest, t.day ≠ day := by
          intro t ht hday
          rcases List.mem_cons.1 ht with rfl | ht
          · exact hlt.ne (congrArg _ hday)
          · exact ((hbelow t ht).trans hlt).ne (congrArg _ hday)
        rcases List.mem_cons.1 hs with rfl | hs
        · exact Or.inr ⟨0, 0, rfl, Or.inr ⟨hne, rfl, rfl⟩⟩
        · exact Or.inl ⟨hs, hne s hs⟩
      · obtain rfl : d.day = day := Calendar.Day.eq_iff.2 heq
        rcases List.mem_cons.1 hs with rfl | hs
        · exact Or.inr ⟨d.generation, d.demand, rfl, Or.inl List.mem_cons_self⟩
        · exact Or.inl ⟨List.mem_cons_of_mem _ hs, fun hday =>
            (hbelow s hs).ne (congrArg _ hday)⟩
      · have hne : d.day ≠ day := fun hday => heq (congrArg _ hday)
        rcases List.mem_cons.1 hs with rfl | hs
        · exact Or.inl ⟨List.mem_cons_self, hne⟩
        · refine (ih hrest hs).imp (fun hold => ⟨List.mem_cons_of_mem _ hold.1, hold.2⟩) ?_
          rintro ⟨x, y, rfl, hold⟩
          refine ⟨x, y, rfl, hold.imp (List.mem_cons_of_mem _) fun hnew => ⟨?_, hnew.2⟩⟩
          exact List.forall_mem_cons.2 ⟨hne, hnew.1⟩

/-- The sums of the days of some records: each of their days once, with the sums of its records. -/
structure IsDaysOf (hours : α) (rs : List (Record α)) (days : List (DaySums α)) : Prop where
  isFalling : IsFalling days
  exists_day_iff : ∀ day, (∃ s ∈ days, s.day = day) ↔ ∃ r ∈ rs, r.timestamp.day = day
  eq_sumsOn : ∀ s ∈ days, s = sumsOn hours rs s.day

namespace IsDaysOf

theorem nil (hours : α) : IsDaysOf hours [] [] := by
  constructor <;> simp [IsFalling]

/-- One more record keeps the sums of the days. -/
theorem concat (h : IsDaysOf hours rs days) (r : Record α) :
    IsDaysOf hours (rs ++ [r])
      (addToDay r.timestamp.day (r.generation * hours) (r.demand * hours) days) where
  isFalling := isFalling_addToDay h.isFalling
  exists_day_iff := by
    intro day
    rw [exists_mem_addToDay, h.exists_day_iff]
    simp [or_and_right, exists_or, or_comm, eq_comm]
  eq_sumsOn := by
    intro s hs
    rcases eq_of_mem_addToDay h.isFalling hs with ⟨hold, hne⟩ | ⟨x, y, rfl, hxy⟩
    · rw [sumsOn_concat_of_ne hne.symm]
      exact h.eq_sumsOn s hold
    · have hsums : sumsOn hours rs r.timestamp.day = ⟨r.timestamp.day, x, y⟩ := by
        rcases hxy with hold | ⟨hnone, rfl, rfl⟩
        · exact (h.eq_sumsOn _ hold).symm
        · refine sumsOn_of_forall_ne fun q hq hday => ?_
          obtain ⟨d, hd, hday⟩ := (h.exists_day_iff _).2 ⟨q, hq, hday⟩
          exact hnone d hd hday
      rw [sumsOn_concat_self, hsums]

end IsDaysOf

/-- The sums that a report finds are the sums of the days of its records. -/
theorem isDaysOf_reverse_daySums (hours : α) (rs : List (Record α)) :
    IsDaysOf hours rs (daySums hours rs).reverse := by
  rw [daySums, List.reverse_reverse]
  induction rs using List.reverseRecOn with
  | nil => exact IsDaysOf.nil hours
  | append_singleton rs r ih =>
      rw [List.foldl_concat]
      exact ih.concat r

theorem pairwise_daySums (hours : α) (rs : List (Record α)) :
    (daySums hours rs).Pairwise fun earlier later => earlier.day.number < later.day.number :=
  List.pairwise_reverse.1 (isDaysOf_reverse_daySums hours rs).isFalling

theorem exists_mem_daySums_iff (hours : α) :
    (∃ s ∈ daySums hours rs, s.day = day) ↔ ∃ r ∈ rs, r.timestamp.day = day := by
  simpa using (isDaysOf_reverse_daySums hours rs).exists_day_iff day

theorem eq_sumsOn_of_mem_daySums (h : s ∈ daySums hours rs) : s = sumsOn hours rs s.day :=
  (isDaysOf_reverse_daySums hours rs).eq_sumsOn s (List.mem_reverse.2 h)

/-! ## The days divide the records -/

theorem flatMap_filter_perm {β κ : Type} [DecidableEq κ] (key : β → κ) {ks : List κ}
    (hks : ks.Nodup) (xs : List β) :
    (ks.flatMap fun k => xs.filter fun x => key x = k).Perm (xs.filter fun x => key x ∈ ks) := by
  induction ks with
  | nil => simp
  | cons k ks ih =>
      obtain ⟨hk, hrest⟩ := List.nodup_cons.1 hks
      have hself : (xs.filter fun x => key x ∈ k :: ks).filter (fun x => key x = k) =
          xs.filter fun x => key x = k := by
        rw [List.filter_filter]
        refine List.filter_congr fun x _ => ?_
        by_cases hx : key x = k <;> simp [hx]
      have hothers : (xs.filter fun x => key x ∈ k :: ks).filter (fun x => !decide (key x = k)) =
          xs.filter fun x => key x ∈ ks := by
        rw [List.filter_filter]
        refine List.filter_congr fun x _ => ?_
        by_cases hx : key x = k <;> simp [hx, hk]
      have hsplit := List.filter_append_perm (fun x => decide (key x = k))
        (xs.filter fun x => key x ∈ k :: ks)
      rw [hself, hothers] at hsplit
      exact ((ih hrest).append_left _).trans hsplit

/-- The records of the days together are all records, each once. -/
theorem flatMap_recordsOn_perm (hours : α) (rs : List (Record α)) :
    ((daySums hours rs).flatMap fun s => recordsOn s.day rs).Perm rs := by
  have hnodup : ((daySums hours rs).map (·.day)).Nodup :=
    List.pairwise_map.2 ((pairwise_daySums hours rs).imp fun hlt hday =>
      hlt.ne (congrArg _ hday))
  have hperm := flatMap_filter_perm (fun r : Record α => r.timestamp.day) hnodup rs
  rw [List.flatMap_map] at hperm
  refine hperm.trans (List.Perm.of_eq (List.filter_eq_self.2 fun r hr => ?_))
  obtain ⟨s, hs, hday⟩ := (exists_mem_daySums_iff hours).2 ⟨r, hr, rfl⟩
  exact decide_eq_true (List.mem_map.2 ⟨s, hs, hday⟩)

end

/-- In exact arithmetic a total is the sum of the totals of the days. -/
theorem sum_total_recordsOn (f : Record ℚ → ℚ) (hours : ℚ) (rs : List (Record ℚ)) :
    ((daySums hours rs).map fun s => total f (recordsOn s.day rs)).sum = total f rs := by
  have htotal : ∀ qs : List (Record ℚ), total f qs = (qs.map f).sum := by
    intro qs
    rw [total, List.sum_eq_foldl, List.foldl_map]
  have hperm := ((flatMap_recordsOn_perm hours rs).map f).sum_eq
  simp only [htotal]
  rw [← hperm, List.map_flatMap, List.flatMap_def, List.sum_flatten, List.map_map]
  rfl

/-- For any records, whatever the order of their timestamps, a report has one balance for each of
their days, in the order of the calendar. The generation and the demand of a day are summed from
zero over the records of this day, in their order, and every record belongs to the records of one
day. In exact arithmetic the days add up to the totals. -/
theorem days_divide_records :
    (∀ (α : Type) [Quantity α] (result : Result α),
      let days := (Report.ofResult result).days
      days.Pairwise (fun earlier later => earlier.day.number < later.day.number) ∧
      (∀ day, (∃ d ∈ days, d.day = day) ↔ ∃ r ∈ result.records, r.timestamp.day = day) ∧
      (∀ d ∈ days,
        d.generation = (recordsOn d.day result.records).foldl
          (fun sum r => sum + r.generation * result.hours) 0 ∧
        d.demand = (recordsOn d.day result.records).foldl
          (fun sum r => sum + r.demand * result.hours) 0) ∧
      (days.flatMap fun d => recordsOn d.day result.records).Perm result.records) ∧
    ∀ result : Result ℚ,
      ((Report.ofResult result).days.map (·.generation)).sum = (Report.ofResult result).generation ∧
      ((Report.ofResult result).days.map (·.demand)).sum = (Report.ofResult result).demand := by
  constructor
  · intro α _ result
    rw [Report.days_ofResult]
    refine ⟨List.pairwise_map.2 (pairwise_daySums _ _), fun day => ?_, fun d hd => ?_, ?_⟩
    · rw [← exists_mem_daySums_iff result.hours]
      simp only [List.mem_map, exists_exists_and_eq_and, DaySums.balance]
    · obtain ⟨s, hs, rfl⟩ := List.mem_map.1 hd
      have hsums := eq_sumsOn_of_mem_daySums hs
      exact ⟨congrArg DaySums.generation hsums, congrArg DaySums.demand hsums⟩
    · rw [List.flatMap_map]
      exact flatMap_recordsOn_perm _ _
  · intro result
    rw [Report.days_ofResult, List.map_map, List.map_map]
    have hgeneration := sum_total_recordsOn (fun r => r.generation * result.hours) result.hours
      result.records
    have hdemand := sum_total_recordsOn (fun r => r.demand * result.hours) result.hours
      result.records
    constructor
    · refine (congrArg List.sum (List.map_congr_left fun s hs => ?_)).trans hgeneration
      exact congrArg DaySums.generation (eq_sumsOn_of_mem_daySums hs)
    · refine (congrArg List.sum (List.map_congr_left fun s hs => ?_)).trans hdemand
      exact congrArg DaySums.demand (eq_sumsOn_of_mem_daySums hs)

end LocalGrid
