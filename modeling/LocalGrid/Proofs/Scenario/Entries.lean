import LocalGrid.Proofs.Calendar.Validity
import LocalGrid.Proofs.Scenario.Refusals
import Mathlib.Data.List.Perm.Basic

/-!
# Entries of series

What stands at an index of the series of a scenario, read off the scenario and its files: the draw
of that number from a stream of its own, the value of a profile that starts over at its end, the
number in that row of a table, or the sum over the buildings of which no later one has the name.
The series that are made have these entries.
-/

namespace LocalGrid

/-! ## Draws -/

namespace Random

variable {σ β : Type}

/-- The draw of a number, counted from zero. -/
def drawAt (draw : σ → β × σ) : ℕ → σ → β
  | 0, s => (draw s).1
  | n + 1, s => drawAt draw n (draw s).2

theorem getElem?_draws (draw : σ → β × σ) {n i : ℕ} (h : i < n) (s : σ) :
    (draws draw n s).1[i]? = some (drawAt draw i s) := by
  induction i generalizing n s with
  | zero =>
      cases n with
      | zero => exact absurd h (Nat.lt_irrefl _)
      | succ n => rfl
  | succ i ih =>
      cases n with
      | zero => exact absurd h (Nat.not_lt_zero _)
      | succ n => exact ih (Nat.lt_of_succ_lt_succ h) _

end Random

namespace Demand

variable {steps i : ℕ} {x : Float32}

theorem eq_of_getElem?_uniformProfile {low high : UInt32} {seed : UInt64} (hle : low ≤ high)
    (h : (uniformProfile steps low high seed)[i]? = some x) :
    x = Random.drawAt (uniformDraw low high) i (.ofSeed seed) := by
  have hi := (List.getElem?_eq_some_iff.1 h).1
  rw [length_uniformProfile] at hi
  rw [uniformProfile, if_pos hle, Random.getElem?_draws _ hi] at h
  exact (Option.some.inj h).symm

theorem getElem?_of_repeatTo {baseline : List Float32} (hne : baseline ≠ [])
    (h : (repeatTo baseline steps)[i]? = some x) : baseline[i % baseline.length]? = some x := by
  obtain ⟨hi, hx⟩ := List.getElem?_eq_some_iff.1 h
  have hlt : i % baseline.length < baseline.length :=
    Nat.mod_lt _ (List.length_pos_iff.2 hne)
  rw [getElem_repeatTo, List.getD_eq_getElem?_getD, List.getElem?_eq_getElem hlt] at hx
  rw [List.getElem?_eq_getElem hlt, ← hx, Option.getD_some]

end Demand

/-! ## Cells -/

namespace Table

/-- The number of a column in a row of a table, the row below the header being the first. -/
def CellAt (bytes : List UInt8) (column : String) (i : ℕ) (x : Float32) : Prop :=
  ∃ header body names index r cells reading,
    rows bytes = header :: body ∧ header.header = .ok names ∧
    names.idxOf? column = some index ∧ body[i]? = some r ∧
    r.cells (i + 1) header.fields.length = .ok cells ∧
    Decimal.read (cells.getD index "") = .ok reading ∧ reading.toSingle = x

theorem exists_reading_of_readCells {column : String} {index width row i : ℕ} {body : List Row}
    {xs : List Float32} {x : Float32} (h : readCells column index width row body = .ok xs)
    (hx : xs[i]? = some x) : ∃ r cells reading, body[i]? = some r ∧
      r.cells (row + i) width = .ok cells ∧
      Decimal.read (cells.getD index "") = .ok reading ∧ reading.toSingle = x := by
  induction body generalizing row xs i with
  | nil =>
      obtain rfl := Except.ok.inj h
      simp at hx
  | cons r body ih =>
      obtain ⟨cells, hcells, h⟩ := exists_of_bind h
      dsimp only at h
      split at h
      · cases h
      · next reading hread =>
        obtain ⟨rest, hrest, h⟩ := exists_of_bind h
        obtain rfl := Except.ok.inj h
        cases i with
        | zero => exact ⟨r, cells, reading, rfl, hcells, hread, Option.some.inj hx⟩
        | succ i =>
            obtain ⟨q, other, reading', hq, hother, hread'⟩ := ih hrest hx
            refine ⟨q, other, reading', hq, ?_, hread'⟩
            rwa [Nat.add_assoc, Nat.add_comm 1 i] at hother

theorem cellAt_of_readColumn {column : String} {bytes : List UInt8} {xs : List Float32} {i : ℕ}
    {x : Float32} (h : readColumn column bytes = .ok xs) (hx : xs[i]? = some x) :
    CellAt bytes column i x := by
  unfold readColumn at h
  split at h
  · cases h
  · next header body hrows =>
    obtain ⟨names, hnames, h⟩ := exists_of_bind h
    split at h
    · cases h
    · next index hindex =>
      obtain ⟨r, cells, reading, hr, hcells, hreading⟩ := exists_reading_of_readCells h hx
      rw [Nat.add_comm] at hcells
      exact ⟨header, body, names, index, r, cells, reading, hrows, hnames, hindex, hr, hcells,
        hreading⟩

end Table

def Files.CellAt (files : Files) (path column : String) (i : ℕ) (x : Float32) : Prop :=
  ∃ bytes, files.bytes path = .ok bytes ∧ Table.CellAt bytes column i x

theorem exists_of_mapError {ε ε' β : Type} {x : Except ε β} {f : ε → ε'} {b : β}
    (h : x.mapError f = .ok b) : x = .ok b := by
  cases x with
  | error e => cases h
  | ok c => exact congrArg _ (Except.ok.inj h)

theorem Files.cellAt_of_column {files : Files} {path column : String} {xs : List Float32} {i : ℕ}
    {x : Float32} (h : files.column path column = .ok xs) (hx : xs[i]? = some x) :
    files.CellAt path column i x := by
  obtain ⟨bytes, hbytes, h⟩ := exists_of_bind h
  exact ⟨bytes, exists_of_mapError hbytes, Table.cellAt_of_readColumn (exists_of_mapError h) hx⟩

namespace Scenario

variable {files : Files} {steps i : ℕ} {seed : UInt64} {x : Float32} {xs : List Float32}

/-! ## Sources -/

/-- The entry of a source: a draw from the stream of a seed, a value of the repeated profile, or
a cell of the table. -/
inductive Source.Entry (files : Files) (seed : UInt64) (s : Source) (i : ℕ) : Float32 → Prop
  | random (hkind : s.kind = "random") :
      Entry files seed s i (Random.drawAt (Demand.uniformDraw s.low s.high) i (.ofSeed seed))
  | profile (hkind : s.kind = "profile") {x : Float32}
      (hx : s.profile[i % s.profile.length]? = some x) : Entry files seed s i x
  | table (hkind : s.kind = "csv") {path : String} {x : Float32} (hpath : s.path = some path)
      (hx : files.CellAt path s.column i x) : Entry files seed s i x

theorem cellAt_of_tableSeries {field : FileField} {path column : String}
    (h : tableSeries files field path column = .ok xs) (hx : xs[i]? = some x) :
    files.CellAt path column i x :=
  Files.cellAt_of_column (exists_of_mapError h) hx

theorem getElem?_of_repeatTo? {baseline : List Float32} (hne : baseline ≠ [])
    (h : orTooLong (Demand.repeatTo? baseline steps) = .ok xs) (hx : xs[i]? = some x) :
    baseline[i % baseline.length]? = some x := by
  have hmade := orTooLong_ok h
  rw [Demand.repeatTo?, Option.ite_none_right_eq_some] at hmade
  obtain rfl := Option.some.inj hmade.2
  exact Demand.getElem?_of_repeatTo hne hx

theorem eq_of_uniformProfile? {low high : UInt32} (hle : low ≤ high)
    (h : orTooLong (Demand.uniformProfile? steps low high seed) = .ok xs)
    (hx : xs[i]? = some x) :
    x = Random.drawAt (Demand.uniformDraw low high) i (.ofSeed seed) := by
  have hmade := orTooLong_ok h
  rw [Demand.uniformProfile?, Option.ite_none_right_eq_some] at hmade
  obtain rfl := Option.some.inj hmade.2
  exact Demand.eq_of_getElem?_uniformProfile hle hx

theorem Source.entry_of_series {load : Load} {s : Source} (hs : s.Accepted load)
    (h : s.series files load steps seed = .ok xs) (hx : xs[i]? = some x) :
    s.Entry files (seed + load.seedOffset) i x := by
  unfold Source.series at h
  split at h
  · next hkind =>
    rw [eq_of_uniformProfile? (hs.low_le_high hkind) h hx]
    exact .random hkind
  · next hkind => exact .profile hkind (getElem?_of_repeatTo? (hs.profile_ne_nil hkind) h hx)
  · next hkind =>
    split at h
    · next path hpath => exact .table hkind hpath (cellAt_of_tableSeries h hx)
    · cases h
  · cases h

/-! ## Buildings -/

/-- The entry of a building: a cell of its table, or of its repeated profile if it has none. -/
inductive Building.Entry (files : Files) (b : Building) (i : ℕ) : Float32 → Prop
  | profile (hpath : b.path = none) {x : Float32}
      (hx : b.profile[i % b.profile.length]? = some x) : Entry files b i x
  | table {path : String} {x : Float32} (hpath : b.path = some path)
      (hx : files.CellAt path b.column i x) : Entry files b i x

theorem Building.entry_of_series {b : Building} (hb : b.Accepted) {index : ℕ}
    (h : b.series files index steps = .ok xs) (hx : xs[i]? = some x) :
    b.Entry files i x := by
  unfold Building.series at h
  split at h
  · next path hpath => exact .table hpath (cellAt_of_tableSeries h hx)
  · next hpath => exact .profile hpath (getElem?_of_repeatTo? (hb.profile_ne_nil hpath) h hx)

/-- The buildings of which no later one has the name. -/
def survivors : List Building → List Building
  | [] => []
  | b :: rest => if rest.any fun c => c.name == b.name then survivors rest else b :: survivors rest

theorem mem_of_mem_survivors {b : Building} {buildings : List Building}
    (h : b ∈ survivors buildings) : b ∈ buildings := by
  induction buildings with
  | nil => exact h
  | cons c rest ih =>
      rw [survivors] at h
      split_ifs at h
      · exact List.mem_cons_of_mem _ (ih h)
      · rcases List.mem_cons.1 h with rfl | h
        · exact List.mem_cons_self
        · exact List.mem_cons_of_mem _ (ih h)

def Building.Makes (files : Files) (steps : ℕ) (b : Building) (e : String × List Float32) : Prop :=
  e.1 = b.name ∧ ∃ index, b.series files index steps = .ok e.2

open Demand.Neighborhood in
/-- A neighbourhood that has gathered buildings has the series of those that survive, and of what
it had before the series of other names. -/
theorem gather_perm {index : ℕ} {buildings : List Building} {n m : Demand.Neighborhood Float32}
    (hn : IsRising n.entries) (h : gather files steps index buildings n = .ok m) :
    IsRising m.entries ∧ ∃ es, List.Forall₂ (Building.Makes files steps) (survivors buildings) es ∧
      m.entries.Perm (n.entries.filter (fun e => !buildings.any fun b => b.name == e.1) ++ es) := by
  induction buildings generalizing index n with
  | nil =>
      obtain rfl := Except.ok.inj h
      exact ⟨hn, [], .nil, by simp⟩
  | cons b rest ih =>
      obtain ⟨xs, hxs, h⟩ := exists_of_bind h
      obtain ⟨hm, es, hes, hperm⟩ := ih (isRising_insert hn) h
      have hothers : (n.entries.filter fun e => e.1 ≠ b.name).filter
          (fun e => !rest.any fun c => c.name == e.1) =
            n.entries.filter fun e => !(b :: rest).any fun c => c.name == e.1 := by
        rw [List.filter_filter]
        refine List.filter_congr fun e _ => ?_
        rw [List.any_cons, Bool.not_or, Bool.and_comm, Bool.beq_comm]
        congr 1
        simp [beq_eq_decide]
      have hinsert := (insert_perm b.name xs hn).filter
        fun e => !rest.any fun c => c.name == e.1
      have hall := hperm.trans (hinsert.append_right es)
      refine ⟨hm, ?_⟩
      rw [survivors]
      split_ifs with hlater
      · rw [List.filter_cons_of_neg (by simpa using hlater), hothers] at hall
        exact ⟨es, hes, hall⟩
      · rw [List.filter_cons_of_pos (by simpa using hlater), hothers] at hall
        exact ⟨(b.name, xs) :: es, .cons ⟨rfl, _, hxs⟩ hes, hall.trans List.perm_middle.symm⟩

/-! ## Demands -/

/-- The entry of a demand: that of its source, or the sum of the entries of the buildings that
survive, in the order of their names. -/
inductive Demand.Entry (files : Files) (seed : UInt64) (d : Demand) (i : ℕ) : Float32 → Prop
  | source (hkind : d.source.kind ≠ "neighborhood") {x : Float32}
      (hx : d.source.Entry files seed i x) : Entry files seed d i x
  | sum (hkind : d.source.kind = "neighborhood") {kept : List Building} {xs : List Float32}
      (hkept : kept.Perm (survivors d.buildings))
      (hrising : kept.Pairwise fun a b => a.name < b.name)
      (hxs : List.Forall₂ (Building.Entry files · i) kept xs) :
      Entry files seed d i (Demand.sumInOrder xs)

theorem pairwise_name {kept : List Building} {es : List (String × List Float32)}
    (h : List.Forall₂ (Building.Makes files steps) kept es)
    (hes : Demand.Neighborhood.IsRising es) : kept.Pairwise fun a b => a.name < b.name := by
  have hnames : es.map (·.1) = kept.map (·.name) := by
    have hmap := List.forall₂_map_right_iff.2 (List.forall₂_map_left_iff.2
      (h.imp fun b e hb => hb.1.symm))
    exact (List.forall₂_eq_eq_eq.symm ▸ hmap : kept.map (·.name) = es.map (·.1)).symm
  rw [← List.pairwise_map (f := Building.name), ← hnames, List.pairwise_map]
  exact hes

theorem Demand.entry_of_series {d : Demand} (hd : d.Accepted)
    (h : d.series files steps seed = .ok xs) (hx : xs[i]? = some x) :
    d.Entry files (seed + 101) i x := by
  unfold series at h
  split_ifs at h with hkind
  · obtain ⟨n, hn, h⟩ := exists_of_bind h
    obtain ⟨hrising, es, hes, hperm⟩ := gather_perm List.Pairwise.nil hn
    obtain ⟨hlengths, hsum⟩ := Demand.Neighborhood.total_ok (exists_of_mapError h)
    -- the entries are in the order of the names, and so are the buildings that made them
    obtain ⟨kept, hkept, hsurvivors⟩ :=
      List.perm_comp_forall₂ (r := flip (Building.Makes files steps)) hperm hes.flip
    have haccepted : ∀ b ∈ kept, b.Accepted := fun b hb =>
      hd.building hkind b (mem_of_mem_survivors (hsurvivors.mem_iff.1 hb))
    have hmade := (List.forall₂_and_left _ _).2
      ⟨haccepted, ((List.forall₂_and_left _ _).2 ⟨hlengths, hkept⟩).flip⟩
    obtain ⟨hi, hget⟩ := List.getElem?_eq_some_iff.1 hx
    have hvalue : x = Demand.sumInOrder (Demand.Neighborhood.column n.entries i) := by
      rw [← hsum i hi, List.getD_eq_getElem?_getD, hx, Option.getD_some]
    rw [hvalue]
    refine .sum (by simpa [isNeighborhood] using hkind) hsurvivors
      (pairwise_name hkept.flip hrising) ?_
    refine List.forall₂_map_right_iff.2 (hmade.imp fun b e hb => ?_)
    obtain ⟨hb, hlength, -, index, hseries⟩ := hb
    refine Building.entry_of_series hb hseries ?_
    rw [List.getD_eq_getElem?_getD, List.getElem?_eq_getElem (hlength ▸ hi), Option.getD_some]
  · exact .source (by simpa [isNeighborhood] using hkind) 
      (Source.entry_of_series hd.source h hx)

theorem Thermal.exists_of_series {t : Thermal} {series : Option (List Float32)}
    (h : t.series files steps seed = .ok series) :
    (series.isSome = true ↔ t.enabled = true) ∧
      ∀ xs, series = some xs → t.source.series files .thermal steps seed = .ok xs := by
  unfold Thermal.series at h
  split_ifs at h with henabled
  · obtain ⟨xs, hxs, h⟩ := exists_of_bind h
    obtain rfl := Except.ok.inj h
    exact ⟨iff_of_true rfl henabled, fun ys hys => Option.some.inj hys ▸ hxs⟩
  · obtain rfl := Except.ok.inj h
    exact ⟨iff_of_false Bool.false_ne_true henabled, fun ys hys => nomatch hys⟩

end Scenario

end LocalGrid
