import LocalGrid.Proofs.Demand.Neighborhood
import LocalGrid.Proofs.Text.Order
import Mathlib.Data.List.Dedup

/-!
# Histories of neighbourhoods

A neighbourhood remembers the last series of each name. Its entries are these series in the order
of the names, whatever the order in which they were given, and its sum is theirs.
-/

namespace LocalGrid.Demand.Neighborhood

open Quantity

variable {α : Type} {history other : List (String × List α)} {e : String × List α}

def ofHistory (history : List (String × List α)) : Neighborhood α :=
  history.foldl (fun n e => n.add e.1 e.2) empty

/-- A series that has been given, with no other one of the same name after it. -/
def IsLast (history : List (String × List α)) (e : String × List α) : Prop :=
  ∃ before after, history = before ++ e :: after ∧ ∀ f ∈ after, f.1 ≠ e.1

/-! ## Last series -/

theorem not_isLast_nil : ¬ IsLast [] e := by
  rintro ⟨before, after, h, -⟩
  simp at h

theorem IsLast.mem (h : IsLast history e) : e ∈ history := by
  obtain ⟨before, after, rfl, -⟩ := h
  simp

/-- A new series is the last one of its name, and of the other names the last ones stay. -/
theorem isLast_append_singleton {new : String × List α} :
    IsLast (history ++ [new]) e ↔ e = new ∨ IsLast history e ∧ e.1 ≠ new.1 := by
  constructor
  · rintro ⟨before, after, h, hafter⟩
    rcases List.eq_nil_or_concat after with rfl | ⟨after, last, rfl⟩
    · exact Or.inl (List.singleton_inj.1 (List.append_inj_right' h rfl).symm)
    · have hsplit : history ++ [new] = (before ++ e :: after) ++ [last] := by simpa using h
      obtain ⟨rfl, hlast⟩ := List.append_inj' hsplit rfl
      rw [List.concat_eq_append] at hafter
      refine Or.inr ⟨⟨before, after, rfl, fun f hf => hafter f (List.mem_append_left _ hf)⟩, ?_⟩
      rw [List.singleton_inj.1 hlast]
      exact (hafter last (by simp)).symm
  · rintro (rfl | ⟨⟨before, after, rfl, hafter⟩, hne⟩)
    · exact ⟨history, [], rfl, by simp⟩
    · refine ⟨before, after ++ [new], by simp, fun f hf => ?_⟩
      rcases List.mem_append.1 hf with hf | hf
      · exact hafter f hf
      · rw [List.mem_singleton.1 hf]
        exact hne.symm

/-- Series of different names are all the last ones of their names. -/
theorem isLast_iff_mem (h : (history.map Prod.fst).Nodup) : IsLast history e ↔ e ∈ history := by
  refine ⟨IsLast.mem, fun he => ?_⟩
  obtain ⟨before, after, rfl⟩ := List.mem_iff_append.1 he
  rw [List.map_append, List.map_cons] at h
  have hnew : e.1 ∉ after.map Prod.fst := (List.nodup_cons.1 h.of_append_right).1
  exact ⟨before, after, rfl, fun f hf heq => hnew (heq ▸ List.mem_map_of_mem hf)⟩

/-- The names with a last series are those to which a series has been given. -/
theorem exists_isLast_iff {name : String} :
    (∃ series, IsLast history (name, series)) ↔ name ∈ history.map Prod.fst := by
  constructor
  · rintro ⟨series, h⟩
    exact List.mem_map_of_mem (f := Prod.fst) h.mem
  · induction history using List.reverseRecOn with
    | nil => simp
    | append_singleton history new ih =>
        intro h
        by_cases heq : name = new.1
        · exact ⟨new.2, isLast_append_singleton.2 (Or.inl (by rw [heq]))⟩
        · rw [List.map_append, List.mem_append] at h
          obtain ⟨series, hlast⟩ := ih (h.resolve_right (by simpa using heq))
          exact ⟨series, isLast_append_singleton.2 (Or.inr ⟨hlast, heq⟩)⟩

/-! ## Entries -/

theorem ofHistory_append_singleton {new : String × List α} :
    ofHistory (history ++ [new]) = (ofHistory history).add new.1 new.2 := by
  rw [ofHistory, List.foldl_append]
  rfl

/-- The names rise after any history, since each new series is put in its place. -/
theorem isRising_ofHistory (history : List (String × List α)) :
    IsRising (ofHistory history).entries := by
  induction history using List.reverseRecOn with
  | nil => exact List.Pairwise.nil
  | append_singleton history new ih =>
      rw [ofHistory_append_singleton]
      exact isRising_insert ih

/-- The entries are the last series of the names. -/
theorem mem_entries_ofHistory_iff : e ∈ (ofHistory history).entries ↔ IsLast history e := by
  induction history using List.reverseRecOn with
  | nil => simpa [ofHistory, empty] using not_isLast_nil
  | append_singleton history new ih =>
      rw [isLast_append_singleton, ← ih, ofHistory_append_singleton, add,
        (insert_perm _ _ (isRising_ofHistory history)).mem_iff]
      simp

/-- Histories with the same last series lead to one neighbourhood. -/
theorem ofHistory_eq (h : ∀ e, IsLast history e ↔ IsLast other e) :
    ofHistory history = ofHistory other := by
  have hentries : (ofHistory history).entries = (ofHistory other).entries :=
    (isRising_ofHistory history).eq_of_mem_iff (isRising_ofHistory other) fun e => by
      rw [mem_entries_ofHistory_iff, mem_entries_ofHistory_iff, h e]
  exact congrArg mk hentries

/-- The last series of the names lead to the same neighbourhood in any order. -/
theorem ofHistory_of_perm (h : other.Perm (ofHistory history).entries) :
    ofHistory other = ofHistory history := by
  refine ofHistory_eq fun e => ?_
  rw [isLast_iff_mem ((h.map Prod.fst).nodup_iff.2 (isRising_ofHistory history).nodup_names),
    h.mem_iff, mem_entries_ofHistory_iff]

theorem mem_names_ofHistory_iff {name : String} :
    name ∈ (ofHistory history).entries.map Prod.fst ↔ name ∈ history.map Prod.fst := by
  rw [List.mem_map, ← exists_isLast_iff]
  constructor
  · rintro ⟨e, he, rfl⟩
    exact ⟨e.2, mem_entries_ofHistory_iff.1 he⟩
  · rintro ⟨series, h⟩
    exact ⟨(name, series), mem_entries_ofHistory_iff.2 h, rfl⟩

/-- The number of buildings is that of the names. -/
theorem size_ofHistory (history : List (String × List α)) :
    (ofHistory history).size = (history.map Prod.fst).dedup.length := by
  have hperm : ((ofHistory history).entries.map Prod.fst).Perm (history.map Prod.fst).dedup :=
    (List.perm_ext_iff_of_nodup (isRising_ofHistory history).nodup_names
      (List.nodup_dedup _)).2 fun name => by rw [List.mem_dedup, mem_names_ofHistory_iff]
  rw [size, ← List.length_map (f := Prod.fst), hperm.length_eq]

/-- There is no building where no series has been given. -/
theorem entries_ofHistory_eq_nil_iff : (ofHistory history).entries = [] ↔ history = [] := by
  rcases List.eq_nil_or_concat history with rfl | ⟨history, new, rfl⟩
  · exact iff_of_true rfl rfl
  · rw [List.concat_eq_append, ofHistory_append_singleton]
    exact iff_of_false (insert_ne_nil _ _ _) (by simp)

/-! ## Sums -/

variable [Quantity α]

/-- The sum depends on the last series of the names only. They are kept in the order of the bytes
of the names, each entry of the sum adds theirs in that order, and a series that has been replaced
may have another length. Without a sum the first building of another length than the first one is
reported. -/
theorem total_from_last_series (history : List (String × List α)) :
    (∀ e, e ∈ (ofHistory history).entries ↔ IsLast history e) ∧
    ((ofHistory history).entries.Pairwise fun a b => Text.encode a.1 < Text.encode b.1) ∧
    (ofHistory history).size = (history.map Prod.fst).dedup.length ∧
    (∀ other, other.Perm (ofHistory history).entries →
      (ofHistory other).total = (ofHistory history).total) ∧
    ((∃ xs, (ofHistory history).total = .ok xs) ↔
      history ≠ [] ∧ ∃ steps, ∀ e, IsLast history e → e.2.length = steps) ∧
    (∀ xs, (ofHistory history).total = .ok xs →
      (∀ e, IsLast history e → e.2.length = xs.length) ∧
      ∀ i < xs.length, xs.getD i 0 = sumInOrder (column (ofHistory history).entries i)) ∧
    ∀ reason, (ofHistory history).total = .error reason →
      history = [] ∧ reason = .noBuilding ∨
      ∃ first before name series after,
        (ofHistory history).entries = first :: (before ++ (name, series) :: after) ∧
        (∀ f ∈ before, f.2.length = first.2.length) ∧ series.length ≠ first.2.length ∧
        reason = .length name series.length first.2.length := by
  have hmem : ∀ e, e ∈ (ofHistory history).entries ↔ IsLast history e :=
    fun e => mem_entries_ofHistory_iff
  refine ⟨hmem, ?_, size_ofHistory history, fun other h => ?_, ?_, fun xs h => ?_,
    fun reason h => ?_⟩
  · exact (isRising_ofHistory history).imp Text.encode_lt_encode_iff.2
  · rw [ofHistory_of_perm h]
  · simp only [exists_total_iff, ne_eq, entries_ofHistory_eq_nil_iff, hmem]
  · simpa only [hmem] using total_ok h
  · by_cases hnil : history = []
    · subst hnil
      exact Or.inl ⟨rfl, (Except.error.inj h).symm⟩
    · exact Or.inr (total_error (mt entries_ofHistory_eq_nil_iff.1 hnil) h)

/-- The series given for three buildings, one of them twice. A value of one is lost when it is added
to the large value. -/
def threeBuildings : List (String × List Float32) :=
  [("é", [16777216, 5]), ("a", [7]), ("B", [1, 2]), ("a", [1, 3])]

/-- The sum is the same in any order of the buildings, and both ones count in it, since they are
added first. After a series of another length the building that has it is reported. -/
theorem total_from_last_series_threeBuildings :
    (ofHistory threeBuildings).size = 3 ∧
    (ofHistory [("é", [16777216, 5]), ("a", [1, 3]), ("B", [1, 2])]).total =
      (ofHistory threeBuildings).total ∧
    (∃ xs, (ofHistory threeBuildings).total = .ok xs ∧ xs.length = 2 ∧ xs.getD 0 0 = 16777218) ∧
    ∃ first before series after, (ofHistory (threeBuildings ++ [("a", [7])])).entries =
        first :: (before ++ ("a", series) :: after) ∧
      (∀ f ∈ before, f.2.length = first.2.length) ∧ series.length = 1 ∧ first.2.length = 2 := by
  obtain ⟨hmem, -, hsize, horder, hok, hsum, -⟩ := total_from_last_series threeBuildings
  have hentries : (ofHistory threeBuildings).entries =
      [("B", [1, 2]), ("a", [1, 3]), ("é", [16777216, 5])] := by decide +kernel
  have hlast : ∀ e, IsLast threeBuildings e → e.2.length = 2 := fun e he => by
    have hlengths : ∀ f ∈ (ofHistory threeBuildings).entries, f.2.length = 2 := by
      rw [hentries]
      decide
    exact hlengths e ((hmem e).2 he)
  refine ⟨hsize, horder _ (hentries ▸ by decide +kernel), ?_, ?_⟩
  · obtain ⟨xs, hxs⟩ := hok.2 ⟨by decide, 2, hlast⟩
    obtain ⟨hlengths, hget⟩ := hsum xs hxs
    have hfirst : IsLast threeBuildings ("é", [16777216, 5]) := (hmem _).1 (by simp [hentries])
    have hlength : xs.length = 2 := (hlengths _ hfirst).symm
    refine ⟨xs, hxs, hlength, ?_⟩
    rw [hget 0 (by omega), hentries]
    decide +kernel
  · obtain ⟨-, -, -, -, -, -, herror⟩ := total_from_last_series (threeBuildings ++ [("a", [7])])
    obtain ⟨hnil, -⟩ | ⟨first, before, name, series, after, hsplit, hbefore, -, hreason⟩ :=
      herror (.length "a" 1 2) rfl
    · cases hnil
    · obtain ⟨rfl, hseries, hfirst⟩ := SumError.length.inj hreason
      exact ⟨first, before, series, after, hsplit, hbefore, hseries.symm, hfirst.symm⟩

end LocalGrid.Demand.Neighborhood
