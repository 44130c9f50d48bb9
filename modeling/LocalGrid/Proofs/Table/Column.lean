import LocalGrid.Export.Run
import LocalGrid.Proofs.Table.Rows
import LocalGrid.Proofs.Text.Ascii
import LocalGrid.Table.Column

/-!
# Columns of plain tables

A table of texts that need no quotes is read back cell by cell. So the numbers of a column are those
of its cells, up to the first cell that is no number.
-/

namespace LocalGrid.Table

/-! ## Cells -/

/-- A text that stands in a table as it is. -/
structure IsCell (text : String) : Prop where
  isAscii : Text.IsAscii text.toList
  plain : ∀ c ∈ text.toList, c ≠ ',' ∧ c ≠ '"' ∧ c ≠ '\n' ∧ c ≠ '\r'
  isTrimmed : Text.IsTrimmed text.toList

section

variable {c : Char} {text : String}

theorem byteOf_eq_iff {d : Char} (hc : c.toNat < 128) (hd : d.toNat < 128) :
    Text.byteOf c = Text.byteOf d ↔ c = d := by
  rw [← UInt8.toNat_inj, Text.toNat_byteOf hc, Text.toNat_byteOf hd, Char.toNat_inj]

theorem isPlain_byteOf (hc : c.toNat < 128) (h : c ≠ ',' ∧ c ≠ '"' ∧ c ≠ '\n' ∧ c ≠ '\r') :
    IsPlain (Text.byteOf c) := by
  obtain ⟨hcomma, hquote, hfeed, hreturn⟩ := h
  refine ⟨fun heq => hcomma ((byteOf_eq_iff hc (by decide)).1 heq),
    fun heq => hquote ((byteOf_eq_iff hc (by decide)).1 heq), ?_⟩
  rw [endsRow, Bool.or_eq_false_iff, beq_eq_false_iff_ne, beq_eq_false_iff_ne]
  exact ⟨fun heq => hfeed ((byteOf_eq_iff hc (by decide)).1 heq),
    fun heq => hreturn ((byteOf_eq_iff hc (by decide)).1 heq)⟩

theorem IsCell.isPlain (h : IsCell text) : ∀ b ∈ Text.encode text, IsPlain b := by
  intro b hb
  rw [Text.encode_of_isAscii h.isAscii] at hb
  obtain ⟨c, hc, rfl⟩ := List.mem_map.1 hb
  exact isPlain_byteOf (h.isAscii c hc) (h.plain c hc)

theorem not_isPadding (hc : c.toNat < 128) (h : Text.isBlank c = false) :
    isPadding (Text.byteOf c) = false := by
  by_contra hpadding
  simp only [isPadding, Bool.not_eq_false, Bool.or_eq_true, beq_iff_eq, ← UInt8.toNat_inj,
    Text.toNat_byteOf hc] at hpadding
  simp only [Text.isBlank, Bool.or_eq_false_iff, Bool.and_eq_false_iff, decide_eq_false_iff_not,
    beq_eq_false_iff_ne] at h
  have hfeed : lineFeed.toNat = 10 := rfl
  have hreturn : carriageReturn.toNat = 13 := rfl
  simp only [hfeed, hreturn, UInt8.reduceToNat] at hpadding
  omega

theorem dropWhile_isPadding {cs : List Char} (hascii : Text.IsAscii cs)
    (h : ∀ c ∈ cs.head?, Text.isBlank c = false) :
    (cs.map Text.byteOf).dropWhile isPadding = cs.map Text.byteOf := by
  cases cs with
  | nil => rfl
  | cons c cs =>
      rw [List.map_cons, List.dropWhile_cons_of_neg]
      simp [not_isPadding (hascii c List.mem_cons_self) (h c rfl)]

theorem IsCell.trimField_encode (h : IsCell text) :
    trimField (Text.encode text) = Text.encode text := by
  have hreverse : Text.IsAscii text.toList.reverse := fun c hc =>
    h.isAscii c (List.mem_reverse.1 hc)
  rw [Text.encode_of_isAscii h.isAscii, trimField,
    dropWhile_isPadding h.isAscii h.isTrimmed.head, ← List.map_reverse,
    dropWhile_isPadding hreverse (by rw [List.head?_reverse]; exact h.isTrimmed.last),
    ← List.map_reverse, List.reverse_reverse]

end

/-! ## Rows -/

theorem Row.textsFrom_encode {cells : List String} (h : ∀ s ∈ cells, IsCell s) (row n : ℕ)
    (place : Place) : textsFrom row place n (cells.map Text.encode) = .ok cells := by
  induction cells generalizing n with
  | nil => rfl
  | cons s cells ih =>
      have hs := h s List.mem_cons_self
      rw [List.map_cons, textsFrom, Text.encode_of_isAscii hs.isAscii,
        Text.decodeFrom_of_isAscii hs.isAscii]
      simp only [ih fun t ht => h t (List.mem_cons_of_mem _ ht),
        Text.trim_of_isTrimmed hs.isTrimmed, String.ofList_toList]
      rfl

theorem Row.cells_of_fields {r : Row} {cells : List String} (h : ∀ s ∈ cells, IsCell s)
    (hr : r.fields = cells.map Text.encode) (row : ℕ) : r.cells row cells.length = .ok cells := by
  have htrim : (cells.map Text.encode).map trimField = cells.map Text.encode := by
    rw [List.map_map]
    exact List.map_congr_left fun s hs => (h s hs).trimField_encode
  rw [Row.cells, hr, if_pos (List.length_map _), htrim, textsFrom_encode h]

theorem Row.header_of_fields {r : Row} {cells : List String} (h : ∀ s ∈ cells, IsCell s)
    (hr : r.fields = cells.map Text.encode) : r.header = .ok cells := by
  rw [header, hr, textsFrom_encode h]

/-! ## Columns -/

def readTexts (column : String) (index : ℕ) : ℕ → List (List String) →
    Except ColumnError (List Float32)
  | _, [] => .ok []
  | row, cells :: rest =>
    match Decimal.read (cells.getD index "") with
    | .error reason => .error (.notNumber row column (cells.getD index "") reason)
    | .ok reading => (readTexts column index (row + 1) rest).map (reading.toSingle :: ·)

theorem readCells_eq_readTexts {column : String} {index width row : ℕ} {rows : List Row}
    {body : List (List String)} (hcells : ∀ cells ∈ body, ∀ s ∈ cells, IsCell s)
    (hwidth : ∀ cells ∈ body, cells.length = width)
    (hrows : rows.map Row.fields = body.map fun cells => cells.map Text.encode) :
    readCells column index width row rows = readTexts column index row body := by
  induction body generalizing row rows with
  | nil =>
      obtain rfl : rows = [] := by simpa using hrows
      rfl
  | cons cells body ih =>
      obtain ⟨r, rows, rfl, hr, hrest⟩ := List.map_eq_cons_iff.1 hrows
      have hread := Row.cells_of_fields (hcells cells List.mem_cons_self) hr row
      rw [hwidth cells List.mem_cons_self] at hread
      rw [readCells, hread, readTexts]
      simp only [bind, Except.bind, ih (fun c hc => hcells c (List.mem_cons_of_mem _ hc))
        (fun c hc => hwidth c (List.mem_cons_of_mem _ hc)) hrest]
      cases Decimal.read (cells.getD index "") with
      | error reason => rfl
      | ok reading => cases readTexts column index (row + 1) body <;> rfl

theorem flatMap_intercalate {β γ : Type} (f : β → List γ) (sep : List β) (lists : List (List β)) :
    (sep.intercalate lists).flatMap f = (sep.flatMap f).intercalate (lists.map (·.flatMap f)) := by
  induction lists with
  | nil => rfl
  | cons l lists ih =>
      cases lists with
      | nil => simp [List.intercalate]
      | cons m lists =>
          simp only [List.intercalate, List.intersperse_cons_cons, List.flatten_cons,
            List.flatMap_append, List.map_cons] at ih ⊢
          rw [ih]

theorem encode_row (cells : List String) :
    Text.encode (Export.row cells) = line (cells.map Text.encode) := by
  have hcomma : ",".toList.flatMap String.utf8EncodeChar = [comma] := by decide
  have hfeed : Text.encode "\n" = [lineFeed] := by
    rw [Text.encode_eq_flatMap]
    decide
  rw [Export.row, Text.encode_append, hfeed, Text.encode_eq_flatMap, String.toList_intercalate,
    flatMap_intercalate, hcomma, List.map_map, line]
  congr 2
  exact List.map_congr_left fun s _ => (Text.encode_eq_flatMap s).symm

/-- Rows of texts that can be lines of a table: they start with a text that is not empty. -/
structure IsTable (table : List (List String)) : Prop where
  cell : ∀ cells ∈ table, ∀ s ∈ cells, IsCell s
  first : ∀ cells ∈ table, ∃ s rest, cells = s :: rest ∧ s ≠ ""

namespace IsTable

variable {table : List (List String)}

theorem isLine (h : IsTable table) {cells : List String} (hmem : cells ∈ table) :
    IsLine (cells.map Text.encode) := by
  obtain ⟨s, rest, rfl, hs⟩ := h.first cells hmem
  refine ⟨⟨_, _, rfl, ?_⟩, ?_⟩
  · rw [Text.encode_of_isAscii (h.cell _ hmem s List.mem_cons_self).isAscii]
    simpa using hs
  · intro f hf
    obtain ⟨t, ht, rfl⟩ := List.mem_map.1 hf
    exact (h.cell _ hmem t ht).isPlain

theorem head?_lines (h : IsTable table) :
    ((table.map fun cells => cells.map Text.encode).flatMap line).head? ≠ some 0xEF := by
  cases table with
  | nil => simp
  | cons cells table =>
      obtain ⟨s, rest, rfl, hs⟩ := h.first cells List.mem_cons_self
      have hascii := (h.cell _ List.mem_cons_self s List.mem_cons_self).isAscii
      obtain ⟨c, cs, hchars⟩ := List.exists_cons_of_ne_nil (mt String.toList_eq_nil_iff.1 hs)
      have hc : c.toNat < 128 := hascii c (hchars ▸ List.mem_cons_self)
      have hfield : Text.encode s = Text.byteOf c :: cs.map Text.byteOf := by
        rw [Text.encode_of_isAscii hascii, hchars, List.map_cons]
      have hbyte : Text.byteOf c ≠ 0xEF := by
        rw [Ne, ← UInt8.toNat_inj, Text.toNat_byteOf hc]
        exact Nat.ne_of_lt (Nat.lt_trans hc (by decide))
      cases rest <;> simpa [line, hfield, List.intercalate] using hbyte

theorem fields_rows (h : IsTable table) :
    (rows (Text.encode (String.join (table.map Export.row)))).map Row.fields =
      table.map fun cells => cells.map Text.encode := by
  have hbytes : Text.encode (String.join (table.map Export.row)) =
      (table.map fun cells => cells.map Text.encode).flatMap line := by
    rw [Text.encode_join, List.flatMap_map, List.flatMap_map]
    exact List.flatMap_congr fun cells _ => encode_row cells
  rw [hbytes]
  refine Table.fields_rows (fun l hl => ?_) h.head?_lines
  obtain ⟨cells, hcells, rfl⟩ := List.mem_map.1 hl
  exact h.isLine hcells

end IsTable

/-- A column of a table is read from its cells. -/
theorem readColumn_encode {header : List String} {body : List (List String)}
    (h : IsTable (header :: body)) (hwidth : ∀ cells ∈ body, cells.length = header.length)
    (column : String) :
    readColumn column (Text.encode (String.join ((header :: body).map Export.row))) =
      match header.idxOf? column with
      | none => .error (.missing column)
      | some index => readTexts column index 1 body := by
  obtain ⟨top, below, hrows, htop, hbelow⟩ := List.map_eq_cons_iff.1 h.fields_rows
  have hheader := Row.header_of_fields (h.cell header List.mem_cons_self) htop
  have hlength : top.fields.length = header.length := by rw [htop, List.length_map]
  rw [readColumn, hrows]
  simp only [hheader, hlength, bind, Except.bind]
  cases header.idxOf? column with
  | none => rfl
  | some index =>
      exact readCells_eq_readTexts (fun cells hc => h.cell cells (List.mem_cons_of_mem _ hc))
        hwidth hbelow

/-! ## Numbers -/

section

variable {column : String} {index row : ℕ} {body : List (List String)}

theorem readTexts_ok {xs : List Float32} (h : List.Forall₂ (fun cells x =>
    (Decimal.read (cells.getD index "")).map (·.toSingle) = .ok x) body xs) :
    readTexts column index row body = .ok xs := by
  induction h generalizing row with
  | nil => rfl
  | @cons cells x body xs hx hrest ih =>
      rw [readTexts]
      cases hread : Decimal.read (cells.getD index "") with
      | error reason =>
          rw [hread] at hx
          cases hx
      | ok reading =>
          rw [hread] at hx
          obtain rfl : reading.toSingle = x := Except.ok.inj hx
          simp only [ih]
          rfl

/-- The first cell that is no number is reported with its row. -/
theorem readTexts_error {k : ℕ} {cells : List String} {reason : Decimal.ReadError}
    (hk : body[k]? = some cells) (hcell : Decimal.read (cells.getD index "") = .error reason)
    (hbefore : ∀ j < k, ∀ other, body[j]? = some other →
      ∃ reading, Decimal.read (other.getD index "") = .ok reading) :
    readTexts column index row body =
      .error (.notNumber (row + k) column (cells.getD index "") reason) := by
  induction body generalizing row k with
  | nil => simp at hk
  | cons other body ih =>
      cases k with
      | zero =>
          obtain rfl : other = cells := by simpa using hk
          rw [readTexts, hcell]
          rfl
      | succ k =>
          obtain ⟨reading, hreading⟩ := hbefore 0 k.succ_pos other rfl
          have hrest : readTexts column index (row + 1) body =
              .error (.notNumber (row + 1 + k) column (cells.getD index "") reason) :=
            ih (by simpa using hk) fun j hj c hc =>
              hbefore (j + 1) (Nat.succ_lt_succ hj) c (by simpa using hc)
          rw [readTexts, hreading]
          simp only [hrest]
          rw [Nat.add_assoc, Nat.add_comm 1 k]
          rfl

end

end LocalGrid.Table
