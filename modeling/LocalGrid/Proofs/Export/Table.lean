import LocalGrid.Proofs.Decimal.Places
import LocalGrid.Proofs.Table.Column

/-!
# Reading exported tables

A table of records is read back column by column. Every number that is read is written like its
cell, so that exporting and reading again changes nothing more. The columns of a thermal store can
be read if every record has one.
-/

namespace LocalGrid.Export

open Quantity Simulation Table

/-! ## Words -/

/-- A character from the plus sign to the last letter, but no comma. -/
def IsWordChar (c : Char) : Prop := 0x2B ≤ c.toNat ∧ c.toNat ≤ 0x7A ∧ c ≠ ','

instance (c : Char) : Decidable (IsWordChar c) :=
  inferInstanceAs (Decidable (0x2B ≤ c.toNat ∧ c.toNat ≤ 0x7A ∧ c ≠ ','))

def IsWord (cs : List Char) : Prop := ∀ c ∈ cs, IsWordChar c

instance (cs : List Char) : Decidable (IsWord cs) := List.decidableBAll IsWordChar cs

variable {c : Char} {cs ds : List Char} {text : String}

namespace IsWordChar

theorem isBlank (h : IsWordChar c) : Text.isBlank c = false := by
  obtain ⟨hlow, hhigh, -⟩ := h
  simp only [Text.isBlank, Bool.or_eq_false_iff, Bool.and_eq_false_iff, decide_eq_false_iff_not,
    beq_eq_false_iff_ne]
  omega

theorem ne_special (h : IsWordChar c) : c ≠ ',' ∧ c ≠ '"' ∧ c ≠ '\n' ∧ c ≠ '\r' := by
  refine ⟨h.2.2, ?_, ?_, ?_⟩ <;>
  · rintro rfl
    exact absurd h.1 (by decide)

theorem of_isDigit (h : c.isDigit = true) : IsWordChar c := by
  obtain ⟨hlow, hhigh⟩ := Char.isDigit_iff_toNat.1 h
  refine ⟨Nat.le_trans (by decide) hlow, Nat.le_trans hhigh (by decide), ?_⟩
  rintro rfl
  exact absurd h (by decide)

end IsWordChar

namespace IsWord

theorem append (hcs : IsWord cs) (hds : IsWord ds) : IsWord (cs ++ ds) := fun c hc =>
  (List.mem_append.1 hc).elim (hcs c) (hds c)

theorem cons (hc : IsWordChar c) (hcs : IsWord cs) : IsWord (c :: cs) :=
  List.forall_mem_cons.2 ⟨hc, hcs⟩

theorem of_isDigits (h : Decimal.IsDigits cs) : IsWord cs := fun c hc => .of_isDigit (h c hc)

end IsWord

theorem isWord_padded (width n : ℕ) : IsWord (Calendar.padded width n) :=
  .of_isDigits (Decimal.isDigits_zeros_append _ n)

theorem isWord_yearText (year : ℤ) : IsWord (Calendar.yearText year) := by
  unfold Calendar.yearText
  split
  · exact isWord_padded _ _
  · refine .cons ?_ (isWord_padded _ _)
    split <;> decide

theorem isWord_date (d : Calendar.Date) : IsWord d.chars :=
  ((((isWord_yearText _).append (by decide)).append (isWord_padded _ _)).append
    (by decide)).append (isWord_padded _ _)

theorem isWord_minuteChars (t : Calendar.Timestamp) : IsWord t.minuteChars :=
  ((isWord_padded _ _).append (by decide)).append (isWord_padded _ _)

theorem isWord_sign (negative : Bool) : IsWord (Decimal.sign negative).toList := by
  cases negative <;> decide

theorem isWord_single (x : Float32) : IsWord (tablePlaces.single x).toList := by
  rw [Decimal.Places.single]
  cases Binary.ofSingle x with
  | nan => decide
  | infinite negative => cases negative <;> decide
  | finite negative m e =>
      rw [Decimal.text_finite, String.toList_append, Decimal.toList_unitsText four_ne_zero]
      have hwhole := IsWord.of_isDigits (Decimal.isDigits_unitsWhole 4 (Decimal.unitsOf m e))
      have hfraction := IsWord.of_isDigits (Decimal.isDigits_unitsFraction 4 (Decimal.unitsOf m e))
      exact (isWord_sign negative).append (hwhole.append (hfraction.cons (by decide)))

/-! ## Cells -/

theorem isCell_of_chars (h : ∀ c ∈ text.toList, IsWordChar c ∨ c = ' ')
    (htrimmed : Text.IsTrimmed text.toList) : IsCell text where
  isAscii c hc := by
    rcases h c hc with hword | rfl
    · exact Nat.lt_of_le_of_lt hword.2.1 (by decide)
    · decide
  plain c hc := by
    rcases h c hc with hword | rfl
    · exact hword.ne_special
    · decide
  isTrimmed := htrimmed

theorem isCell_of_isWord (h : IsWord text.toList) : IsCell text :=
  isCell_of_chars (fun c hc => Or.inl (h c hc))
    ⟨fun c hc => (h c (List.mem_of_mem_head? hc)).isBlank,
      fun c hc => (h c (List.mem_of_mem_getLast? hc)).isBlank⟩

theorem isCell_tableText (t : Calendar.Timestamp) : IsCell t.tableText := by
  have hdate : t.day.date.chars ≠ [] := by simp [Calendar.Date.chars]
  have hminute : t.minuteChars ≠ [] := by simp [Calendar.Timestamp.minuteChars]
  refine isCell_of_chars ?_ ⟨fun c hc => ?_, fun c hc => ?_⟩ <;>
    rw [Calendar.Timestamp.tableText, String.toList_ofList] at *
  · intro c hc
    rw [List.mem_append, List.mem_append, List.mem_singleton] at hc
    rcases hc with (hc | hc) | hc
    · exact Or.inl (isWord_date _ c hc)
    · exact Or.inr hc
    · exact Or.inl (isWord_minuteChars t c hc)
  · rw [List.append_assoc, List.head?_append_of_ne_nil _ hdate] at hc
    exact (isWord_date _ c (List.mem_of_mem_head? hc)).isBlank
  · rw [List.getLast?_append_of_ne_nil _ hminute] at hc
    exact (isWord_minuteChars t c (List.mem_of_mem_getLast? hc)).isBlank

theorem isCell_of_mem_thermalCells {thermal : Option (ThermalRecord Float32)} {s : String}
    (hs : s ∈ thermalCells thermal) : IsCell s := by
  cases thermal with
  | none =>
      obtain rfl : s = "" := by simpa [thermalCells] using hs
      exact isCell_of_isWord (by decide)
  | some t =>
      simp only [thermalCells, List.mem_cons, List.not_mem_nil, or_false] at hs
      rcases hs with rfl | rfl | rfl <;> exact isCell_of_isWord (isWord_single _)

theorem isCell_of_mem_cells (r : Record Float32) : ∀ s ∈ cells r, IsCell s := by
  have hindex : IsCell (Nat.repr r.index) :=
    isCell_of_isWord (by rw [Nat.toList_repr]; exact .of_isDigits (Decimal.isDigits_digits _))
  have hflag : IsCell (if r.generationOff then "true" else "false") := by
    split <;> exact isCell_of_isWord (by decide)
  have hsingle (x : Float32) : IsCell (tablePlaces.single x) := isCell_of_isWord (isWord_single x)
  rw [cells, List.forall_mem_append]
  refine ⟨?_, fun s hs => isCell_of_mem_thermalCells hs⟩
  simp only [List.forall_mem_cons]
  exact ⟨hindex, isCell_tableText _, hsingle _, hsingle _, hsingle _, hsingle _, hsingle _,
    hsingle _, hflag, hsingle _, hsingle _, hsingle _, hsingle _, List.forall_mem_nil _⟩

theorem length_cells (r : Record Float32) : (cells r).length = columns.length := by
  cases h : r.thermal <;> simp [cells, columns, thermalCells, h]

theorem repr_ne_empty (n : ℕ) : Nat.repr n ≠ "" := by
  rw [Ne, ← String.toList_eq_nil_iff, Nat.toList_repr]
  exact Decimal.digits_ne_nil n

theorem isTable_cells (records : List (Record Float32)) :
    IsTable (columns :: records.map cells) where
  cell cells hcells s hs := by
    rcases List.mem_cons.1 hcells with rfl | hcells
    · have hwords : ∀ s ∈ columns, IsWord s.toList := by decide
      exact isCell_of_isWord (hwords s hs)
    · obtain ⟨r, -, rfl⟩ := List.mem_map.1 hcells
      exact isCell_of_mem_cells r s hs
  first cells hcells := by
    rcases List.mem_cons.1 hcells with rfl | hcells
    · exact ⟨_, _, rfl, by decide⟩
    · obtain ⟨r, -, rfl⟩ := List.mem_map.1 hcells
      exact ⟨_, _, rfl, repr_ne_empty r.index⟩

/-! ## Columns -/

variable {records : List (Record Float32)} {column : String} {r : Record Float32}

def cellOf (column : String) (r : Record Float32) : Option String :=
  (columns.idxOf? column).bind fun i => (cells r)[i]?

theorem readColumn_eq_readTexts {i : ℕ} (hi : columns.idxOf? column = some i)
    (records : List (Record Float32)) :
    readColumn column (Text.encode (table records)) =
      readTexts column i 1 (records.map cells) := by
  have hread := readColumn_encode (isTable_cells records)
    (fun cells hcells => by
      obtain ⟨r, -, rfl⟩ := List.mem_map.1 hcells
      exact length_cells r) column
  rw [hi, List.map_cons, List.map_map] at hread
  exact hread

theorem getD_of_cellOf {i : ℕ} {cell : String} (hi : columns.idxOf? column = some i)
    (hcell : cellOf column r = some cell) : (cells r).getD i "" = cell := by
  rw [cellOf, hi, Option.bind_some] at hcell
  rw [List.getD_eq_getElem?_getD, hcell, Option.getD_some]

theorem exists_forall₂ {β γ : Type} {R : β → γ → Prop} {xs : List β}
    (h : ∀ x ∈ xs, ∃ y, R x y) : ∃ ys, List.Forall₂ R xs ys := by
  induction xs with
  | nil => exact ⟨[], .nil⟩
  | cons x xs ih =>
      obtain ⟨y, hy⟩ := h x List.mem_cons_self
      obtain ⟨ys, hys⟩ := ih fun z hz => h z (List.mem_cons_of_mem _ hz)
      exact ⟨y :: ys, .cons hy hys⟩

def CellReads (column : String) (r : Record Float32) (x : Float32) : Prop :=
  ∃ cell reading, cellOf column r = some cell ∧ Decimal.read cell = .ok reading ∧
    reading.toSingle = x

/-- A column of numbers is read. -/
theorem exists_readColumn {P : Record Float32 → Float32 → Prop} (hcolumn : column ∈ columns)
    (h : ∀ r ∈ records, ∃ x, CellReads column r x ∧ P r x) :
    ∃ xs, readColumn column (Text.encode (table records)) = .ok xs ∧
      List.Forall₂ P records xs := by
  obtain ⟨i, hi⟩ := Option.isSome_iff_exists.1 (List.isSome_idxOf?.2 hcolumn)
  obtain ⟨xs, hxs⟩ := exists_forall₂ h
  refine ⟨xs, ?_, hxs.imp fun _ _ hx => hx.2⟩
  rw [readColumn_eq_readTexts hi]
  refine readTexts_ok (List.forall₂_map_left_iff.2 (hxs.imp fun r x hx => ?_))
  obtain ⟨⟨cell, reading, hcell, hread, rfl⟩, -⟩ := hx
  rw [getD_of_cellOf hi hcell, hread]
  rfl

/-- A column is refused at the first empty cell, if all cells before it are numbers. -/
theorem readColumn_error {k : ℕ} (hcolumn : column ∈ columns) (hk : records[k]? = some r)
    (hempty : cellOf column r = some "")
    (hbefore : ∀ j < k, ∀ q, records[j]? = some q → ∃ x, CellReads column q x) :
    readColumn column (Text.encode (table records)) =
      .error (.notNumber (k + 1) column "" .empty) := by
  obtain ⟨i, hi⟩ := Option.isSome_iff_exists.1 (List.isSome_idxOf?.2 hcolumn)
  have hrow : (records.map cells)[k]? = some (cells r) := by rw [List.getElem?_map, hk]; rfl
  have hcell := getD_of_cellOf hi hempty
  rw [readColumn_eq_readTexts hi, readTexts_error hrow (by rw [hcell]; rfl), hcell, Nat.add_comm]
  intro j hj other hother
  rw [List.getElem?_map, Option.map_eq_some_iff] at hother
  obtain ⟨q, hq, rfl⟩ := hother
  obtain ⟨x, cell, reading, hcell, hread, -⟩ := hbefore j hj q hq
  exact ⟨reading, by rw [getD_of_cellOf hi hcell, hread]⟩

/-- The columns of quantities, with the fields that they show. -/
def quantityColumns : List (String × (Record Float32 → Float32)) :=
  [("solar_kw", Record.solar), ("wind_kw", Record.wind), ("chp_kw", Record.chp),
   ("total_generation_kw", Record.generation), ("demand_kw", Record.demand),
   ("surplus_kw", Record.surplus), ("battery_level_kwh", Record.batteryLevel),
   ("battery_change_kwh", Record.batteryChange), ("grid_export_kwh", Record.gridExport),
   ("grid_import_kwh", Record.gridImport)]

def thermalColumns : List (String × (ThermalRecord Float32 → Float32)) :=
  [("thermal_level_kwh", ThermalRecord.level), ("thermal_change_kwh", ThermalRecord.change),
   ("thermal_demand_kw", ThermalRecord.demand)]

example : columns = ["timestep", "timestamp"] ++ (quantityColumns.take 6).map Prod.fst ++
    ["generation_off"] ++ (quantityColumns.drop 6).map Prod.fst ++
    thermalColumns.map Prod.fst := rfl

theorem cellOf_quantity : ∀ c ∈ quantityColumns, c.1 ∈ columns ∧
    ∀ r, cellOf c.1 r = some (tablePlaces.single (c.2 r)) := by
  intro c hc
  simp only [quantityColumns, List.mem_cons, List.not_mem_nil, or_false] at hc
  rcases hc with rfl | rfl | rfl | rfl | rfl | rfl | rfl | rfl | rfl | rfl <;>
  · refine ⟨by decide, fun r => ?_⟩
    rfl

theorem cellOf_thermal : ∀ c ∈ thermalColumns, c.1 ∈ columns ∧
    ∀ r, cellOf c.1 r = some (r.thermal.elim "" fun t => tablePlaces.single (c.2 t)) := by
  intro c hc
  simp only [thermalColumns, List.mem_cons, List.not_mem_nil, or_false] at hc
  rcases hc with rfl | rfl | rfl <;>
  · refine ⟨by decide, fun r => ?_⟩
    cases h : r.thermal <;> simp [cellOf, cells, h] <;> rfl

/-- A number that is read for a field of a record: it is written like the cell, and it is the field
if that is finite and not below `1024`. -/
structure IsReadBack (column : String) (r : Record Float32) (field x : Float32) : Prop where
  cell : cellOf column r = some (tablePlaces.single x)
  exact : isFinite field = true → 1024 ≤ Quantity.abs field → x = field

theorem exists_isReadBack {field : Float32}
    (h : cellOf column r = some (tablePlaces.single field)) :
    ∃ x, CellReads column r x ∧ IsReadBack column r field x := by
  obtain ⟨reading, hread, htext, hexact⟩ := Decimal.readsBack field
  exact ⟨_, ⟨_, reading, h, hread, rfl⟩, h.trans (congrArg some htext.symm), hexact⟩

theorem readColumn_quantity {c : String × (Record Float32 → Float32)} (hc : c ∈ quantityColumns)
    (records : List (Record Float32)) :
    ∃ xs, readColumn c.1 (Text.encode (table records)) = .ok xs ∧
      List.Forall₂ (fun r x => IsReadBack c.1 r (c.2 r) x) records xs := by
  obtain ⟨hcolumn, hcell⟩ := cellOf_quantity c hc
  exact exists_readColumn hcolumn fun r _ => exists_isReadBack (hcell r)

theorem readColumn_timestep (records : List (Record Float32)) :
    ∃ xs, readColumn "timestep" (Text.encode (table records)) = .ok xs ∧
      List.Forall₂ (fun r x => x = Float32.ofNat r.index ∧
        PackedQuantity.value? x = some (Rounding.round .binary32 ((r.index : ℝ) : EReal)))
        records xs := by
  refine exists_readColumn (by decide) fun r _ => ⟨_, ⟨_, _, rfl, Decimal.read_repr r.index, rfl⟩,
    Decimal.toSingle_natCast r.index, Decimal.value?_toSingle_natCast r.index⟩

section

variable {c : String × (ThermalRecord Float32 → Float32)}

theorem exists_isReadBack_thermal (hc : c ∈ thermalColumns) (hr : r.thermal.isSome = true) :
    ∃ x, CellReads c.1 r x ∧ ∃ t, r.thermal = some t ∧ IsReadBack c.1 r (c.2 t) x := by
  obtain ⟨t, ht⟩ := Option.isSome_iff_exists.1 hr
  have hcell := (cellOf_thermal c hc).2 r
  rw [ht] at hcell
  obtain ⟨x, hreads, hback⟩ := exists_isReadBack hcell
  exact ⟨x, hreads, t, ht, hback⟩

theorem readColumn_thermal (hc : c ∈ thermalColumns) (h : ∀ r ∈ records, r.thermal.isSome = true) :
    ∃ xs, readColumn c.1 (Text.encode (table records)) = .ok xs ∧
      List.Forall₂ (fun r x => ∃ t, r.thermal = some t ∧ IsReadBack c.1 r (c.2 t) x) records xs :=
  exists_readColumn (cellOf_thermal c hc).1 fun r hr => exists_isReadBack_thermal hc (h r hr)

/-- The first record without a thermal store is refused. -/
theorem readColumn_thermal_error (hc : c ∈ thermalColumns) {k : ℕ}
    (hk : records.findIdx? (fun r => r.thermal.isNone) = some k) :
    readColumn c.1 (Text.encode (table records)) = .error (.notNumber (k + 1) c.1 "" .empty) := by
  obtain ⟨hlt, hnone, hbefore⟩ := List.findIdx?_eq_some_iff_getElem.1 hk
  obtain ⟨hcolumn, hcell⟩ := cellOf_thermal c hc
  refine readColumn_error hcolumn (List.getElem?_eq_getElem hlt) ?_ fun j hj q hq => ?_
  · rw [hcell, Option.isNone_iff_eq_none.1 hnone]
    rfl
  · obtain ⟨hj', rfl⟩ := List.getElem?_eq_some_iff.1 hq
    have hsome : records[j].thermal.isSome = true := by
      simpa [Option.isSome_iff_ne_none] using hbefore j hj
    obtain ⟨x, hreads, -⟩ := exists_isReadBack_thermal hc hsome
    exact ⟨x, hreads⟩

end

/-- Exporting a table and reading it again is stable. Every quantity is read as a number that is
written like its cell, and unchanged if it is finite and not below `1024`; every index is read as
the number nearest to it. A thermal column is read in the same way if every record has a thermal
store, and otherwise the row of the first record without one is invalid data. -/
theorem readColumn_table (records : List (Record Float32)) :
    (∀ c ∈ quantityColumns, ∃ xs,
      readColumn c.1 (Text.encode (table records)) = .ok xs ∧
        List.Forall₂ (fun r x => IsReadBack c.1 r (c.2 r) x) records xs) ∧
    (∃ xs, readColumn "timestep" (Text.encode (table records)) = .ok xs ∧
      List.Forall₂ (fun r x => x = Float32.ofNat r.index ∧
        PackedQuantity.value? x = some (Rounding.round .binary32 ((r.index : ℝ) : EReal)))
        records xs) ∧
    ∀ c ∈ thermalColumns,
      ((∀ r ∈ records, r.thermal.isSome = true) → ∃ xs,
        readColumn c.1 (Text.encode (table records)) = .ok xs ∧
          List.Forall₂ (fun r x => ∃ t, r.thermal = some t ∧ IsReadBack c.1 r (c.2 t) x)
            records xs) ∧
      ∀ k, records.findIdx? (fun r => r.thermal.isNone) = some k →
        ∃ e, readColumn c.1 (Text.encode (table records)) = .error e ∧ e.kind = .invalidData ∧
          e = .notNumber (k + 1) c.1 "" .empty :=
  ⟨fun _ hc => readColumn_quantity hc records, readColumn_timestep records, fun _ hc =>
    ⟨readColumn_thermal hc, fun _ hk => ⟨_, readColumn_thermal_error hc hk, rfl, rfl⟩⟩⟩

def thermalRecord : Record Float32 where
  index := 0
  timestamp := .midnight ⟨0⟩
  solar := 0
  wind := 1.5
  chp := 20
  generation := 21.5
  demand := 30.25
  surplus := -8.75
  generationOff := false
  batteryLevel := 2048.125
  batteryChange := -0
  gridExport := 0
  gridImport := 0.1
  thermal := some ⟨1.00004, 0, 3⟩

def plainRecord : Record Float32 :=
  { thermalRecord with index := 1, batteryLevel := 4096.5, thermal := none }

/-- Large levels of a battery are read as they are, and only the first record has a thermal one. -/
theorem readColumn_table_mixed :
    readColumn "battery_level_kwh" (Text.encode (table [thermalRecord, plainRecord])) =
        .ok [2048.125, 4096.5] ∧
      (∃ x, readColumn "thermal_level_kwh" (Text.encode (table [thermalRecord])) = .ok [x] ∧
        tablePlaces.single x = "1.0000") ∧
      readColumn "thermal_level_kwh" (Text.encode (table [thermalRecord, plainRecord])) =
        .error (.notNumber 2 "thermal_level_kwh" "" .empty) := by
  obtain ⟨hquantity, -, hthermal⟩ := readColumn_table [thermalRecord, plainRecord]
  obtain ⟨-, -, hthermal'⟩ := readColumn_table [thermalRecord]
  refine ⟨?_, ?_, ?_⟩
  · obtain ⟨xs, hlevels, _ | ⟨hx, _ | ⟨hy, _ | _⟩⟩⟩ :=
      hquantity ("battery_level_kwh", Record.batteryLevel) (by simp [quantityColumns])
    rw [hx.exact (by decide +kernel) (by decide +kernel),
      hy.exact (by decide +kernel) (by decide +kernel)] at hlevels
    exact hlevels
  · obtain ⟨xs, hlevels, _ | ⟨⟨t, ht, hx⟩, _ | _⟩⟩ :=
      (hthermal' ("thermal_level_kwh", ThermalRecord.level) (by simp [thermalColumns])).1
        (by simp [thermalRecord])
    refine ⟨_, hlevels, ?_⟩
    have hcell : cellOf "thermal_level_kwh" thermalRecord = some "1.0000" := by decide +kernel
    exact Option.some.inj (hx.cell.symm.trans hcell)
  · obtain ⟨e, herror, -, rfl⟩ :=
      (hthermal ("thermal_level_kwh", ThermalRecord.level) (by simp [thermalColumns])).2 1 rfl
    exact herror

end LocalGrid.Export
