import LocalGrid.Demand.Neighborhood
import LocalGrid.Proofs.Quantity.Rounded
import Mathlib.Data.List.Sort
import Mathlib.Data.String.Basic

/-!
# Sums of neighbourhoods

Series of one length have a sum of that length, each entry of which adds the entries of the series
in the order of the names. A neighbourhood without a sum has no building, or series of two lengths.
-/

namespace LocalGrid.Demand

open Quantity

variable {α : Type}

namespace Neighborhood

/-! ## Entries -/

theorem mem_insert {name : String} {series : List α} {entries : List (String × List α)}
    {e : String × List α} (h : e ∈ insert name series entries) :
    e = (name, series) ∨ e ∈ entries := by
  induction entries with
  | nil => exact Or.inl (List.mem_singleton.1 h)
  | cons other rest ih =>
      obtain ⟨key, xs⟩ := other
      rw [insert] at h
      split_ifs at h with hlt heq
      · exact List.mem_cons.1 h
      · exact (List.mem_cons.1 h).imp_right (List.mem_cons_of_mem _)
      · rcases List.mem_cons.1 h with rfl | h
        · exact Or.inr List.mem_cons_self
        · exact (ih h).imp_right (List.mem_cons_of_mem _)

theorem insert_ne_nil (name : String) (series : List α) (entries : List (String × List α)) :
    insert name series entries ≠ [] := by
  cases entries with
  | nil => simp [insert]
  | cons other rest =>
      obtain ⟨key, xs⟩ := other
      rw [insert]
      split_ifs <;> simp

/-- A series can be changed before or after it is put in its place. -/
theorem insert_map (f : List α → List α) (name : String) (series : List α)
    (entries : List (String × List α)) :
    insert name (f series) (entries.map (Prod.map id f)) =
      (insert name series entries).map (Prod.map id f) := by
  induction entries with
  | nil => rfl
  | cons other rest ih =>
      obtain ⟨key, xs⟩ := other
      simp only [List.map_cons, Prod.map_apply, id, insert]
      split_ifs
      · rfl
      · rfl
      · rw [ih]
        rfl

/-- The names rise, so that none of them stands twice. -/
def IsRising (entries : List (String × List α)) : Prop := entries.Pairwise fun a b => a.1 < b.1

/-- Rising entries are determined by which they are. -/
theorem IsRising.eq_of_mem_iff {entries others : List (String × List α)} (h : IsRising entries)
    (hothers : IsRising others) (hmem : ∀ e, e ∈ entries ↔ e ∈ others) : entries = others := by
  have : Std.Asymm fun a b : String × List α => a.1 < b.1 := ⟨fun _ _ => lt_asymm⟩
  exact List.Pairwise.eq_of_mem_iff h hothers hmem

theorem IsRising.nodup_names {entries : List (String × List α)} (h : IsRising entries) :
    (entries.map Prod.fst).Nodup :=
  List.pairwise_map.2 (h.imp fun hlt => hlt.ne)

/-- The new series comes instead of the one of its name, and the others stay. -/
theorem insert_perm (name : String) (series : List α) {entries : List (String × List α)}
    (h : IsRising entries) :
    (insert name series entries).Perm ((name, series) :: entries.filter fun e => e.1 ≠ name) := by
  induction entries with
  | nil => rfl
  | cons other rest ih =>
      obtain ⟨key, xs⟩ := other
      obtain ⟨hfirst, hrest⟩ := List.pairwise_cons.1 h
      have hkeep (hle : name ≤ key) : rest.filter (fun e => e.1 ≠ name) = rest := by
        refine List.filter_eq_self.2 fun e he => ?_
        simpa using (hle.trans_lt (hfirst e he)).ne'
      rw [insert]
      split_ifs with hlt heq
      · rw [List.filter_cons_of_pos (by simpa using hlt.ne'), hkeep hlt.le]
      · rw [List.filter_cons_of_neg (by simpa using heq.symm), hkeep heq.le]
      · rw [List.filter_cons_of_pos (by simpa using Ne.symm heq)]
        exact ((ih hrest).cons _).trans (List.Perm.swap _ _ _)

theorem isRising_insert {name : String} {series : List α} {entries : List (String × List α)}
    (h : IsRising entries) : IsRising (insert name series entries) := by
  induction entries with
  | nil => exact List.pairwise_singleton _ _
  | cons other rest ih =>
      obtain ⟨key, xs⟩ := other
      obtain ⟨hfirst, hrest⟩ := List.pairwise_cons.1 h
      rw [insert]
      split_ifs with hlt heq
      · refine List.pairwise_cons.2 ⟨fun e he => ?_, h⟩
        rcases List.mem_cons.1 he with rfl | he
        · exact hlt
        · exact hlt.trans (hfirst e he)
      · exact List.pairwise_cons.2 ⟨heq ▸ hfirst, hrest⟩
      · refine List.pairwise_cons.2 ⟨fun e he => ?_, ih hrest⟩
        rcases mem_insert he with rfl | he
        · exact lt_of_le_of_ne (not_lt.1 hlt) (Ne.symm heq)
        · exact hfirst e he

end Neighborhood

/-! ## Sums -/

variable [Quantity α]

/-- The sum of a list from its first entry on; that of an empty one is zero. -/
def sumInOrder : List α → α
  | [] => 0
  | x :: rest => rest.foldl (· + ·) x

theorem sumInOrder_nonneg [RoundedQuantity α] {xs : List α} (h : ∀ x ∈ xs, 0 ≤ x) :
    0 ≤ sumInOrder xs := by
  cases xs with
  | nil => exact RoundedQuantity.isNumber_zero
  | cons x rest =>
      exact RoundedQuantity.foldl_add_nonneg (h x List.mem_cons_self)
        fun z hz => h z (List.mem_cons_of_mem _ hz)

namespace Neighborhood

variable {entries : List (String × List α)} {sum : List α} {e : SumError}

def column (entries : List (String × List α)) (i : ℕ) : List α := entries.map fun e => e.2.getD i 0

theorem addAll_of_lengths (h : ∀ e ∈ entries, e.2.length = sum.length) :
    ∃ xs, addAll sum entries = .ok xs ∧ xs.length = sum.length ∧
      ∀ i < sum.length, xs.getD i 0 = (column entries i).foldl (· + ·) (sum.getD i 0) := by
  induction entries generalizing sum with
  | nil => exact ⟨sum, rfl, rfl, fun _ _ => rfl⟩
  | cons other rest ih =>
      obtain ⟨key, ys⟩ := other
      have hys : ys.length = sum.length := h _ List.mem_cons_self
      have hlength : (List.zipWith (· + ·) sum ys).length = sum.length := by simp [hys]
      have hrest : ∀ e ∈ rest, e.2.length = (List.zipWith (· + ·) sum ys).length := fun e he =>
        (h e (List.mem_cons_of_mem _ he)).trans hlength.symm
      obtain ⟨xs, hxs, hxslength, hget⟩ := ih hrest
      refine ⟨xs, by rw [addAll, if_pos hys, hxs], hxslength.trans hlength, ?_⟩
      intro i hi
      rw [hget i (hlength ▸ hi)]
      simp [column, List.getD_eq_getElem?_getD, hi, hys]

/-- Series of one length have a sum of that length. -/
theorem total_of_lengths {n : Neighborhood α} {steps : ℕ} (hne : n.entries ≠ [])
    (h : ∀ e ∈ n.entries, e.2.length = steps) :
    ∃ xs, n.total = .ok xs ∧ xs.length = steps ∧
      ∀ i < steps, xs.getD i 0 = sumInOrder (column n.entries i) := by
  obtain ⟨_ | ⟨⟨key, ys⟩, rest⟩⟩ := n
  · exact absurd rfl hne
  · have hys : ys.length = steps := h _ List.mem_cons_self
    have hrest : ∀ e ∈ rest, e.2.length = ys.length := fun e he =>
      (h e (List.mem_cons_of_mem _ he)).trans hys.symm
    obtain ⟨xs, hxs, hlength, hget⟩ := addAll_of_lengths hrest
    exact ⟨xs, hxs, hlength.trans hys, fun i hi => hget i (hys ▸ hi)⟩

theorem addAll_ok {xs : List α} (h : addAll sum entries = .ok xs) :
    ∀ e ∈ entries, e.2.length = sum.length := by
  induction entries generalizing sum with
  | nil => simp
  | cons other rest ih =>
      obtain ⟨key, ys⟩ := other
      rw [addAll] at h
      split_ifs at h with hys
      intro e he
      rcases List.mem_cons.1 he with rfl | he
      · exact hys
      · simpa [hys] using ih h e he

/-- The sum of series has their length, and each of its entries is the sum of their entries. -/
theorem total_ok {n : Neighborhood α} {xs : List α} (h : n.total = .ok xs) :
    (∀ e ∈ n.entries, e.2.length = xs.length) ∧
      ∀ i < xs.length, xs.getD i 0 = sumInOrder (column n.entries i) := by
  obtain ⟨_ | ⟨⟨key, ys⟩, rest⟩⟩ := n
  · cases h
  · have hrest := addAll_ok h
    obtain ⟨zs, hzs, hlength, hget⟩ := addAll_of_lengths hrest
    obtain rfl := Except.ok.inj (h.symm.trans hzs)
    refine ⟨fun e he => ?_, fun i hi => hget i (hlength ▸ hi)⟩
    rcases List.mem_cons.1 he with rfl | he
    · exact hlength.symm
    · exact (hrest e he).trans hlength.symm

/-- There is a sum as soon as there is a building and the series have one length. -/
theorem exists_total_iff {n : Neighborhood α} : (∃ xs, n.total = .ok xs) ↔
    n.entries ≠ [] ∧ ∃ steps, ∀ e ∈ n.entries, e.2.length = steps := by
  constructor
  · rintro ⟨xs, h⟩
    refine ⟨fun hnil => ?_, xs.length, (total_ok h).1⟩
    simp [total, hnil] at h
  · rintro ⟨hne, steps, h⟩
    obtain ⟨xs, hxs, -⟩ := total_of_lengths hne h
    exact ⟨xs, hxs⟩

/-- Entries without a sum: those before one of them have the length of the sum, and it has not. -/
theorem addAll_error (h : addAll sum entries = .error e) :
    ∃ before name xs after, entries = before ++ (name, xs) :: after ∧
      (∀ f ∈ before, f.2.length = sum.length) ∧ xs.length ≠ sum.length ∧
        e = .length name xs.length sum.length := by
  induction entries generalizing sum with
  | nil => simp [addAll] at h
  | cons other rest ih =>
      obtain ⟨key, ys⟩ := other
      rw [addAll] at h
      split_ifs at h with hys
      · have hlength : (List.zipWith (· + ·) sum ys).length = sum.length := by simp [hys]
        obtain ⟨before, name, xs, after, rfl, hbefore, hxs, he⟩ := ih h
        rw [hlength] at hbefore hxs he
        refine ⟨(key, ys) :: before, name, xs, after, rfl, fun f hf => ?_, hxs, he⟩
        rcases List.mem_cons.1 hf with rfl | hf
        · exact hys
        · exact hbefore f hf
      · exact ⟨[], key, ys, rest, rfl, by simp, hys, (Except.error.inj h).symm⟩

/-- Buildings without a sum: those before one of them have as many values as the first one, and it
has another number. -/
theorem total_error {n : Neighborhood α} (hne : n.entries ≠ []) (h : n.total = .error e) :
    ∃ first before name xs after, n.entries = first :: (before ++ (name, xs) :: after) ∧
      (∀ f ∈ before, f.2.length = first.2.length) ∧ xs.length ≠ first.2.length ∧
        e = .length name xs.length first.2.length := by
  obtain ⟨_ | ⟨first, rest⟩⟩ := n
  · exact absurd rfl hne
  · obtain ⟨before, name, xs, after, rfl, hbefore, hxs, he⟩ := addAll_error h
    exact ⟨first, before, name, xs, after, rfl, hbefore, hxs, he⟩

end Neighborhood

end LocalGrid.Demand
