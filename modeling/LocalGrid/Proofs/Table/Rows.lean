import LocalGrid.Table.Row
import Mathlib.Data.List.Basic

/-!
# Rows of plain fields

Fields without commas, quotes and line ends are read back from a line as they were joined. The first
field of a line is taken not to be empty, since a line without bytes is no row.
-/

namespace LocalGrid.Table

/-- A byte that ends neither a field nor a row, and starts no quotes. -/
def IsPlain (b : UInt8) : Prop := b ≠ comma ∧ b ≠ quote ∧ endsRow b = false

def line (fields : List (List UInt8)) : List UInt8 := [comma].intercalate fields ++ [lineFeed]

namespace Reader

variable {r : Reader} {b : UInt8} {bs rest : List UInt8}

/-- A reader that takes a plain byte as part of a field without quotes. -/
def IsOpen (r : Reader) : Prop :=
  r.position = .between ∨ r.position = .start ∨ r.position = .bare

theorem accept_of_isPlain (hr : r.IsOpen) (hb : IsPlain b) :
    r.accept b = (none, r.take .bare b) := by
  obtain ⟨hcomma, hquote, hends⟩ := hb
  rcases hr with h | h | h <;> simp [accept, outside, h, hcomma, hquote, hends]

def afterPlain (r : Reader) (bs : List UInt8) : Reader where
  position := if bs = [] then r.position else .bare
  field := bs.reverse ++ r.field
  fields := r.fields
  opened := r.opened
  place := bs.foldl Place.after r.place

theorem rows_append_plain (hr : r.IsOpen) (hbs : ∀ b ∈ bs, IsPlain b) (rest : List UInt8) :
    r.rows (bs ++ rest) = (r.afterPlain bs).rows rest := by
  -- after one plain byte the reader is inside of a field, which is open again
  induction bs generalizing r with
  | nil => rfl
  | cons b bs ih =>
      have hopen : ({ r with place := r.place.after b } : Reader).IsOpen := hr
      have hrest := ih (r := { r with place := r.place.after b }.take .bare b)
        (Or.inr (Or.inr rfl)) fun c hc => hbs c (List.mem_cons_of_mem _ hc)
      rw [List.cons_append, rows, accept_of_isPlain hopen (hbs b List.mem_cons_self)]
      refine hrest.trans ?_
      simp [afterPlain, take]

/-- A comma ends the field. -/
theorem rows_comma (hr : r.IsOpen) (rest : List UInt8) :
    r.rows (comma :: rest) = { r.endField with place := r.place.after comma }.rows rest := by
  rcases hr with h | h | h <;>
    simp [rows, accept, outside, h, show endsRow comma = false from rfl,
      show (comma == quote) = false from rfl, endField]

/-- A line feed ends the row that has been begun. -/
theorem rows_lineFeed (hr : r.position = .start ∨ r.position = .bare) (rest : List UInt8) :
    r.rows (lineFeed :: rest) =
      r.row :: (new (r.place.after lineFeed) (r.place.after lineFeed)).rows rest := by
  rcases hr with h | h <;>
    simp [rows, accept, outside, h, show endsRow lineFeed = true from rfl,
      show (lineFeed == comma) = false from rfl, show (lineFeed == quote) = false from rfl, row]

/-- The fields of a line end the row that has been begun. -/
theorem rows_line {field : List UInt8} {fields : List (List UInt8)}
    (hr : r.position = .start ∨ r.position = .between ∧ field ≠ []) (hfield : r.field = [])
    (hplain : ∀ f ∈ field :: fields, ∀ b ∈ f, IsPlain b) (rest : List UInt8) :
    ∃ place, r.rows (line (field :: fields) ++ rest) =
      ⟨r.fields.reverse ++ field :: fields, r.opened⟩ :: (new place place).rows rest := by
  induction fields generalizing r field with
  | nil =>
      have hopen : r.IsOpen := hr.elim (fun h => Or.inr (Or.inl h)) fun h => Or.inl h.1
      have hafter : (r.afterPlain field).position = .start ∨
          (r.afterPlain field).position = .bare := by
        simp only [afterPlain]
        split_ifs with hnil
        · exact Or.inl (hr.resolve_right fun h => h.2 hnil)
        · exact Or.inr rfl
      have hline : line [field] ++ rest = field ++ lineFeed :: rest := by simp [line]
      refine ⟨(r.afterPlain field).place.after lineFeed, ?_⟩
      rw [hline, rows_append_plain hopen (hplain field List.mem_cons_self), rows_lineFeed hafter]
      simp [row, afterPlain, hfield]
  | cons next fields ih =>
      have hopen : r.IsOpen := hr.elim (fun h => Or.inr (Or.inl h)) fun h => Or.inl h.1
      have hafter : (r.afterPlain field).IsOpen := by
        simp only [IsOpen, afterPlain]
        split_ifs with hnil
        · exact hopen
        · exact Or.inr (Or.inr rfl)
      have hline : line (field :: next :: fields) ++ rest =
          field ++ comma :: (line (next :: fields) ++ rest) := by
        simp [line, List.intercalate]
      let s : Reader := { (r.afterPlain field).endField with
        place := (r.afterPlain field).place.after comma }
      obtain ⟨place, hrows⟩ := ih (r := s) (Or.inl rfl) rfl fun f hf =>
        hplain f (List.mem_cons_of_mem _ hf)
      refine ⟨place, ?_⟩
      rw [hline, rows_append_plain hopen (hplain field List.mem_cons_self), rows_comma hafter]
      refine hrows.trans ?_
      simp [s, endField, afterPlain, hfield]

end Reader

/-- Plain fields, the first of which tells their line from an empty one. -/
def IsLine (fields : List (List UInt8)) : Prop :=
  (∃ field rest, fields = field :: rest ∧ field ≠ []) ∧ ∀ f ∈ fields, ∀ b ∈ f, IsPlain b

theorem Reader.rows_lines {lines : List (List (List UInt8))} (h : ∀ l ∈ lines, IsLine l)
    (opened place : Place) :
    ((Reader.new opened place).rows (lines.flatMap line)).map Row.fields = lines := by
  induction lines generalizing opened place with
  | nil => rfl
  | cons l lines ih =>
      obtain ⟨⟨field, fields, rfl, hne⟩, hplain⟩ := h l List.mem_cons_self
      obtain ⟨next, hrows⟩ := rows_line (r := .new opened place) (Or.inr ⟨rfl, hne⟩) rfl hplain
        (lines.flatMap line)
      rw [List.flatMap_cons, hrows, List.map_cons,
        ih (fun k hk => h k (List.mem_cons_of_mem _ hk))]
      rfl

/-- Lines of plain fields are the rows of a table, if it does not start like a byte order mark. -/
theorem fields_rows {lines : List (List (List UInt8))} (h : ∀ l ∈ lines, IsLine l)
    (hmark : (lines.flatMap line).head? ≠ some 0xEF) :
    (rows (lines.flatMap line)).map Row.fields = lines := by
  unfold rows
  split
  · next hbytes => simp [hbytes] at hmark
  · exact Reader.rows_lines h _ _

end LocalGrid.Table
