import LocalGrid.Export.Document
import Mathlib.Data.List.Basic

/-!
# Documents and their text

A document with one part per line is known from its text, if no leaf and no name can be mistaken for
the marks between the parts. The statement carries what follows a document, because the parts of a
document are followed by others.
-/

namespace LocalGrid.Export.Document

/-! ## Ends -/

/-- Two texts that run up to a mark are known from the text that goes on. -/
theorem append_inj_of_mark {isMark : Char → Prop} {cs cs' rest rest' : List Char}
    (hcs : ∀ c ∈ cs, ¬ isMark c) (hcs' : ∀ c ∈ cs', ¬ isMark c)
    (hrest : ∀ c ∈ rest.head?, isMark c) (hrest' : ∀ c ∈ rest'.head?, isMark c)
    (h : cs ++ rest = cs' ++ rest') : cs = cs' ∧ rest = rest' := by
  induction cs generalizing cs' with
  | nil =>
      cases cs' with
      | nil => exact ⟨rfl, h⟩
      | cons c cs' =>
          rw [List.nil_append] at h
          exact absurd (hrest c (by rw [h]; rfl)) (hcs' c List.mem_cons_self)
  | cons c cs ih =>
      cases cs' with
      | nil =>
          rw [List.nil_append] at h
          exact absurd (hrest' c (by rw [← h]; rfl)) (hcs c List.mem_cons_self)
      | cons c' cs' =>
          rw [List.cons_append, List.cons_append] at h
          obtain ⟨rfl, htail⟩ := List.cons.inj h
          obtain ⟨rfl, rfl⟩ := ih (fun d hd => hcs d (List.mem_cons_of_mem _ hd))
            (fun d hd => hcs' d (List.mem_cons_of_mem _ hd)) htail
          exact ⟨rfl, rfl⟩

/-- The marks that end a value: a comma and a line break. -/
def IsMark (c : Char) : Prop := c = ',' ∨ c = '\n'

instance (c : Char) : Decidable (IsMark c) := inferInstanceAs (Decidable (c = ',' ∨ c = '\n'))

/-- What may follow a value: nothing, or a mark. -/
def IsEnd (rest : List Char) : Prop := ∀ c ∈ rest.head?, IsMark c

theorem isEnd_nil : IsEnd [] := fun _ hc => nomatch hc

theorem isEnd_comma (rest : List Char) : IsEnd (',' :: rest) := fun _ hc =>
  Or.inl (Option.some.inj hc).symm

theorem isEnd_newLine (depth : ℕ) (rest : List Char) : IsEnd (newLine depth ++ rest) := fun _ hc =>
  Or.inr (Option.some.inj hc).symm

/-! ## Blocks -/

section

variable {β : Type} {write : β → List Char} {depth : ℕ} {bs bs' : List β}
  {rest rest' : List Char}

/-- A value that is known from its text and what follows it. -/
def Separates (write : β → List Char) (b b' : β) : Prop :=
  ∀ rest rest', IsEnd rest → IsEnd rest' → write b ++ rest = write b' ++ rest' →
    b = b' ∧ rest = rest'

def following (write : β → List Char) (depth : ℕ) (bs : List β) : List Char :=
  bs.flatMap fun b => ',' :: newLine depth ++ write b

def block (write : β → List Char) (depth : ℕ) (bracket bracket' : Char) : List β → List Char
  | [] => [bracket, bracket']
  | b :: bs => bracket :: newLine (depth + 1) ++ write b ++ following write (depth + 1) bs ++
    newLine depth ++ [bracket']

theorem head?_block (bracket bracket' : Char) (bs : List β) (rest : List Char) :
    (block write depth bracket bracket' bs ++ rest).head? = some bracket := by
  cases bs <;> rfl

theorem isEnd_following (bs : List β) (depth' : ℕ) (rest : List Char) :
    IsEnd (following write depth bs ++ (newLine depth' ++ rest)) := by
  cases bs with
  | nil => exact isEnd_newLine depth' rest
  | cons b bs => exact isEnd_comma _

theorem following_inj (h : ∀ b ∈ bs, ∀ b' ∈ bs', Separates write b b') {depth' : ℕ}
    (heq : following write depth bs ++ (newLine depth' ++ rest) =
      following write depth bs' ++ (newLine depth' ++ rest')) : bs = bs' ∧ rest = rest' := by
  induction bs generalizing bs' with
  | nil =>
      cases bs' with
      | nil => exact ⟨rfl, List.append_cancel_left heq⟩
      | cons b' bs' => exact absurd (List.cons.inj heq).1 (by decide)
  | cons b bs ih =>
      cases bs' with
      | nil => exact absurd (List.cons.inj heq).1 (by decide)
      | cons b' bs' =>
          simp only [following, List.flatMap_cons, List.append_assoc, List.cons_append] at heq
          have hpart := List.append_cancel_left (List.cons.inj heq).2
          obtain ⟨rfl, hrest⟩ := h b List.mem_cons_self b' List.mem_cons_self _ _
            (isEnd_following bs depth' rest) (isEnd_following bs' depth' rest') hpart
          obtain ⟨rfl, rfl⟩ := ih (fun c hc c' hc' => h c (List.mem_cons_of_mem _ hc) c'
            (List.mem_cons_of_mem _ hc')) hrest
          exact ⟨rfl, rfl⟩

theorem block_inj {bracket bracket' : Char} (hbracket : bracket' ≠ '\n')
    (h : ∀ b ∈ bs, ∀ b' ∈ bs', Separates write b b')
    (heq : block write depth bracket bracket' bs ++ rest =
      block write depth bracket bracket' bs' ++ rest') : bs = bs' ∧ rest = rest' := by
  cases bs with
  | nil =>
      cases bs' with
      | nil => exact ⟨rfl, List.append_cancel_left heq⟩
      | cons b' bs' =>
          have hmark := List.cons.inj (List.cons.inj heq).2
          exact absurd hmark.1 hbracket
  | cons b bs =>
      cases bs' with
      | nil =>
          have hmark := List.cons.inj (List.cons.inj heq).2
          exact absurd hmark.1.symm hbracket
      | cons b' bs' =>
          simp only [block, List.append_assoc, List.cons_append] at heq
          have hpart := List.append_cancel_left (List.cons.inj heq).2
          obtain ⟨rfl, hrest⟩ := h b List.mem_cons_self b' List.mem_cons_self _ _
            (isEnd_following bs depth _) (isEnd_following bs' depth _) hpart
          obtain ⟨rfl, htail⟩ := following_inj (fun c hc c' hc' =>
            h c (List.mem_cons_of_mem _ hc) c' (List.mem_cons_of_mem _ hc')) hrest
          exact ⟨rfl, (List.cons.inj htail).2⟩

end

/-! ## Documents -/

theorem prettyItems_eq (depth : ℕ) (items : List Document) :
    prettyItems depth items = following (prettyChars depth) depth items := by
  induction items with
  | nil => rfl
  | cons item items ih =>
      rw [prettyItems, ih]
      rfl

def partChars (depth : ℕ) (part : String × Document) : List Char :=
  keyChars part.1 ++ ' ' :: part.2.prettyChars depth

theorem prettyParts_eq (depth : ℕ) (parts : List (String × Document)) :
    prettyParts depth parts = following (partChars depth) depth parts := by
  induction parts with
  | nil => rfl
  | cons part parts ih =>
      rw [prettyParts, ih]
      simp [following, partChars]

theorem prettyChars_list (depth : ℕ) (items : List Document) :
    prettyChars depth (.list items) = block (prettyChars (depth + 1)) depth '[' ']' items := by
  cases items with
  | nil => simp only [prettyChars, block]
  | cons item items => rw [prettyChars, prettyItems_eq, block]

theorem prettyChars_record (depth : ℕ) (parts : List (String × Document)) :
    prettyChars depth (.record parts) =
      block (partChars (depth + 1)) depth '\x7b' '\x7d' parts := by
  cases parts with
  | nil => simp only [prettyChars, block]
  | cons part parts =>
      rw [prettyChars, prettyParts_eq, block]
      simp [partChars]

/-! ## Injectivity -/

/-- A leaf that shows where it ends and is no list or record. -/
structure IsLeaf (text : String) : Prop where
  unmarked : ∀ c ∈ text.toList, ¬ IsMark c
  head : ∃ c ∈ text.toList.head?, c ≠ '[' ∧ c ≠ '\x7b'

/-- A document whose leaves show where they end and whose names have no quotes. -/
inductive IsWritable : Document → Prop where
  | leaf {text : String} (h : IsLeaf text) : IsWritable (.leaf text)
  | list {items : List Document} (h : ∀ item ∈ items, IsWritable item) : IsWritable (.list items)
  | record {parts : List (String × Document)} (hkeys : ∀ part ∈ parts, '"' ∉ part.1.toList)
      (h : ∀ part ∈ parts, IsWritable part.2) : IsWritable (.record parts)

theorem IsLeaf.head?_ne {text : String} (h : IsLeaf text) (rest : List Char) :
    (text.toList ++ rest).head? ≠ some '[' ∧ (text.toList ++ rest).head? ≠ some '\x7b' := by
  obtain ⟨c, hc, hlist, hrecord⟩ := h.head
  have hhead : (text.toList ++ rest).head? = some c := by
    rw [List.head?_append, hc]
    rfl
  rw [hhead]
  exact ⟨fun heq => hlist (Option.some.inj heq), fun heq => hrecord (Option.some.inj heq)⟩

theorem separates_partChars {depth : ℕ} {part part' : String × Document}
    (hkey : '"' ∉ part.1.toList) (hkey' : '"' ∉ part'.1.toList)
    (h : Separates (prettyChars depth) part.2 part'.2) :
    Separates (partChars depth) part part' := by
  intro rest rest' hrest hrest' heq
  simp only [partChars, keyChars, List.append_assoc, List.cons_append, List.nil_append] at heq
  have hnone {cs : List Char} (hcs : '"' ∉ cs) : ∀ c ∈ cs, ¬ c = '"' := by
    rintro _ hc rfl
    exact hcs hc
  obtain ⟨hname, htail⟩ := append_inj_of_mark (hnone hkey) (hnone hkey')
    (by simp) (by simp) (List.cons.inj heq).2
  have hvalue : part.2.prettyChars depth ++ rest = part'.2.prettyChars depth ++ rest' := by
    simpa using htail
  obtain ⟨hpart, rfl⟩ := h rest rest' hrest hrest' hvalue
  exact ⟨Prod.ext (String.toList_inj.1 hname) hpart, rfl⟩

/-- A document is known from its text, whatever follows it. -/
theorem separates_prettyChars {d d' : Document} (hd : IsWritable d) (hd' : IsWritable d')
    (depth : ℕ) : Separates (prettyChars depth) d d' := by
  -- the first character shows which of the three shapes the other document has
  induction hd generalizing d' depth with
  | @leaf text hleaf =>
      intro rest rest' hrest hrest' heq
      have hhead := congrArg List.head? heq
      cases hd' with
      | @leaf text' hleaf' =>
          simp only [prettyChars] at heq
          obtain ⟨htext, rfl⟩ :=
            append_inj_of_mark hleaf.unmarked hleaf'.unmarked hrest hrest' heq
          exact ⟨congrArg Document.leaf (String.toList_inj.1 htext), rfl⟩
      | list =>
          rw [prettyChars, prettyChars_list, head?_block] at hhead
          exact absurd hhead (hleaf.head?_ne rest).1
      | record =>
          rw [prettyChars, prettyChars_record, head?_block] at hhead
          exact absurd hhead (hleaf.head?_ne rest).2
  | @list items h ih =>
      intro rest rest' hrest hrest' heq
      have hhead := congrArg List.head? heq
      cases hd' with
      | leaf hleaf =>
          rw [prettyChars, prettyChars_list, head?_block] at hhead
          exact absurd hhead.symm (hleaf.head?_ne rest').1
      | @list items' h' =>
          rw [prettyChars_list, prettyChars_list] at heq
          obtain ⟨rfl, rfl⟩ := block_inj (by decide)
            (fun item hitem item' hitem' => ih item hitem (h' item' hitem') (depth + 1)) heq
          exact ⟨rfl, rfl⟩
      | record =>
          rw [prettyChars_list, prettyChars_record, head?_block, head?_block] at hhead
          exact absurd hhead (by decide)
  | @record parts hkeys h ih =>
      intro rest rest' hrest hrest' heq
      have hhead := congrArg List.head? heq
      cases hd' with
      | leaf hleaf =>
          rw [prettyChars, prettyChars_record, head?_block] at hhead
          exact absurd hhead.symm (hleaf.head?_ne rest').2
      | list =>
          rw [prettyChars_list, prettyChars_record, head?_block, head?_block] at hhead
          exact absurd hhead (by decide)
      | @record parts' hkeys' h' =>
          rw [prettyChars_record, prettyChars_record] at heq
          obtain ⟨rfl, rfl⟩ := block_inj (by decide)
            (fun part hpart part' hpart' => separates_partChars (hkeys part hpart)
              (hkeys' part' hpart') (ih part hpart (h' part' hpart') (depth + 1))) heq
          exact ⟨rfl, rfl⟩

/-- No two documents have the same text. -/
theorem pretty_inj {d d' : Document} (hd : IsWritable d) (hd' : IsWritable d')
    (h : d.pretty = d'.pretty) : d = d' := by
  have hchars := String.ofList_inj.1 h
  exact (separates_prettyChars hd hd' 0 [] [] isEnd_nil isEnd_nil (by rw [hchars])).1

end LocalGrid.Export.Document
