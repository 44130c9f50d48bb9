import LocalGrid.Proofs.Calendar.Text
import LocalGrid.Proofs.Decimal.Layout
import LocalGrid.Proofs.Export.Pretty
import LocalGrid.Proofs.Export.Table
import LocalGrid.Proofs.Simulation.Finiteness

/-!
# Exported documents

A run with finite numbers is known from its document, but for leap seconds within a minute. Every
leaf is a text from which its value can be told, an absent value and a number are written
differently, and the parts stand in the same order in every document.
-/

namespace LocalGrid.Export

open Quantity Simulation

/-! ## Leaves -/

def IsNumberChar (c : Char) : Prop := c.isDigit = true ∨ c ∈ ['-', '+', '.', 'e']

instance (c : Char) : Decidable (IsNumberChar c) :=
  inferInstanceAs (Decidable (c.isDigit = true ∨ c ∈ ['-', '+', '.', 'e']))

def IsNumberText (cs : List Char) : Prop := ∀ c ∈ cs, IsNumberChar c

instance (cs : List Char) : Decidable (IsNumberText cs) := List.decidableBAll IsNumberChar cs

namespace IsNumberText

variable {cs ds : List Char}

theorem append (hcs : IsNumberText cs) (hds : IsNumberText ds) : IsNumberText (cs ++ ds) :=
  List.forall_mem_append.2 ⟨hcs, hds⟩

theorem of_isDigits (h : Decimal.IsDigits cs) : IsNumberText cs := fun c hc => Or.inl (h c hc)

theorem take (h : IsNumberText cs) (n : ℕ) : IsNumberText (cs.take n) := fun c hc =>
  h c (List.mem_of_mem_take hc)

theorem drop (h : IsNumberText cs) (n : ℕ) : IsNumberText (cs.drop n) := fun c hc =>
  h c (List.mem_of_mem_drop hc)

end IsNumberText

section

open Decimal

variable {x : Float32} {ds : List Char} {e : ℤ}

theorem isNumberText_plain (l : Layout) (h : IsDigits ds) : IsNumberText (l.plain ds e) := by
  have hds := IsNumberText.of_isDigits h
  have hzeros (k : ℕ) : IsNumberText (List.replicate k '0') := .of_isDigits (isDigits_zeros k)
  have hpoint : IsNumberText ['.'] := by decide
  unfold Layout.plain
  dsimp only
  split_ifs
  · exact (((hzeros 1).append hpoint).append (hzeros _)).append hds
  · exact (hds.append (hzeros _)).append (hpoint.append (hzeros 1))
  · rw [List.append_nil]
    exact hds.append (hzeros _)
  · exact ((hds.take _).append hpoint).append (hds.drop _)

theorem isNumberText_scientific (h : IsDigits ds) : IsNumberText (scientific ds e) := by
  have hds := IsNumberText.of_isDigits h
  have hpoint : IsNumberText ['.'] := by decide
  have hmark : IsNumberText ['e', if e < 0 then '-' else '+'] := by split <;> decide
  refine (((hds.take 1).append ?_).append hmark).append (.of_isDigits (isDigits_digits _))
  split
  · exact fun _ hc => nomatch hc
  · exact hpoint.append (hds.drop 1)

theorem isNumberText_single (l : Layout) (hx : isFinite x = true) :
    IsNumberText (l.single x).toList := by
  obtain ⟨negative, m, e, hx⟩ := exists_of_isFinite hx
  rw [Layout.single, hx, Layout.text, String.toList_append]
  refine IsNumberText.append (by cases negative <;> decide) ?_
  split
  · split <;> decide
  · rw [Layout.write, String.toList_ofList]
    split
    · exact isNumberText_plain l (Digits.isDigits_significant _)
    · exact isNumberText_scientific (Digits.isDigits_significant _)

end

/-! ## Writable documents -/

open Document

theorem IsWordChar.not_isMark {c : Char} (h : IsWordChar c) : ¬ IsMark c := fun hmark =>
  hmark.elim h.ne_special.1 h.ne_special.2.2.1

theorem IsNumberChar.isWordChar {c : Char} (h : IsNumberChar c) : IsWordChar c ∧ c ≠ '[' := by
  rcases h with hdigit | hmark
  · refine ⟨.of_isDigit hdigit, ?_⟩
    rintro rfl
    exact absurd hdigit (by decide)
  · simp only [List.mem_cons, List.not_mem_nil, or_false] at hmark
    rcases hmark with rfl | rfl | rfl | rfl <;> decide

theorem isLeaf_of_isWord {text : String} {c : Char} {tail : List Char}
    (htext : text.toList = c :: tail) (h : IsWord text.toList) (hc : c ≠ '[') : IsLeaf text where
  unmarked d hd := (h d hd).not_isMark
  head := by
    refine ⟨c, by rw [htext]; rfl, hc, ?_⟩
    rintro rfl
    exact absurd (h _ (by rw [htext]; exact List.mem_cons_self)) (by decide)

theorem isLeaf_of_isNumberText {text : String} (h : IsNumberText text.toList) (hne : text ≠ "") :
    IsLeaf text := by
  obtain ⟨c, tail, htext⟩ :=
    List.exists_cons_of_ne_nil fun hnil => hne (String.toList_eq_nil_iff.1 hnil)
  have hc : c ∈ text.toList := by rw [htext]; exact List.mem_cons_self
  exact isLeaf_of_isWord htext (fun d hd => (h d hd).isWordChar.1) (h c hc).isWordChar.2

theorem isLeaf_quoted {text : String} (h : IsWord text.toList) : IsLeaf ("\"" ++ text ++ "\"") where
  unmarked c hc := by
    have hquote : ¬ IsMark '"' := by decide
    simp only [String.toList_append, List.mem_append] at hc
    rcases hc with (hc | hc) | hc
    · obtain rfl := List.mem_singleton.1 hc
      exact hquote
    · exact (h c hc).not_isMark
    · obtain rfl := List.mem_singleton.1 hc
      exact hquote
  head := ⟨'"', by simp [String.toList_append], by decide⟩

theorem isWritable_null : IsWritable null :=
  .leaf (isLeaf_of_isWord rfl (by decide) (by decide))

theorem isWritable_ofBool (b : Bool) : IsWritable (ofBool b) := by
  cases b <;> exact .leaf (isLeaf_of_isWord rfl (by decide) (by decide))

theorem isWritable_ofNat (n : ℕ) : IsWritable (ofNat n) := by
  refine .leaf (isLeaf_of_isNumberText ?_ (repr_ne_empty n))
  rw [Nat.toList_repr]
  exact .of_isDigits (Decimal.isDigits_digits n)

/-- The text of a finite number is the text of a numeral. -/
theorem single_ne_of_read {x : Float32} (hx : isFinite x = true) {text : String}
    (error : Decimal.ReadError) (hread : Decimal.read text = .error error) :
    Decimal.Layout.document.single x ≠ text := by
  rintro rfl
  obtain ⟨negative, m, e, hx⟩ := Decimal.exists_of_isFinite hx
  obtain ⟨n, hok, -⟩ := Decimal.Layout.document.read_single hx
  cases hok.symm.trans hread

theorem isWritable_ofSingle (x : Float32) : IsWritable (ofSingle x) := by
  unfold ofSingle
  split
  · next hx =>
    refine .leaf (isLeaf_of_isNumberText (isNumberText_single _ hx) ?_)
    exact single_ne_of_read hx .empty (by decide)
  · exact isWritable_null

theorem isWord_fractionChars (nanos : ℕ) : IsWord (Calendar.Timestamp.fractionChars nanos) := by
  have hpoint : IsWordChar '.' := by decide
  unfold Calendar.Timestamp.fractionChars
  split_ifs
  · decide
  all_goals exact .cons hpoint (isWord_padded _ _)

theorem isWord_text (t : Calendar.Timestamp) : IsWord t.text.toList := by
  have hmark : IsWord ['T'] := by decide
  have hcolon : IsWord [':'] := by decide
  rw [Calendar.Timestamp.text, String.toList_ofList]
  exact ((isWord_date _).append hmark).append
    ((((isWord_minuteChars t).append hcolon).append (isWord_padded _ _)).append
      (isWord_fractionChars _))

theorem isWritable_ofOption {β : Type} {write : β → Document} (h : ∀ b, IsWritable (write b))
    (o : Option β) : IsWritable (ofOption write o) := by
  cases o with
  | none => exact isWritable_null
  | some b => exact h b

theorem isWritable_thermalDocument (t : ThermalRecord Float32) :
    IsWritable (thermalDocument t) := by
  refine .record ?_ ?_
  · simp only [List.forall_mem_cons]
    decide
  · simp [isWritable_ofSingle]

theorem isWritable_recordDocument (r : Record Float32) : IsWritable (recordDocument r) := by
  refine .record ?_ ?_
  · simp only [List.forall_mem_cons]
    decide
  · have htimestamp : IsWritable (ofPlainText r.timestamp.text) :=
      .leaf (isLeaf_quoted (isWord_text r.timestamp))
    simp [isWritable_ofSingle, isWritable_ofNat, isWritable_ofBool, htimestamp,
      isWritable_ofOption isWritable_thermalDocument]

theorem isWritable_resultDocument (r : Result Float32) : IsWritable (resultDocument r) := by
  refine .record ?_ ?_
  · simp only [List.forall_mem_cons]
    decide
  · have hsteps : IsWritable (.list (r.records.map recordDocument)) :=
      .list (List.forall_mem_map.2 fun s _ => isWritable_recordDocument s)
    simp [isWritable_ofSingle, hsteps, isWritable_ofOption isWritable_ofSingle]

/-! ## Injectivity -/

theorem ofNat_inj {n k : ℕ} (h : ofNat n = ofNat k) : n = k := by
  have hread := Decimal.read_repr n
  rw [Document.leaf.inj h, Decimal.read_repr] at hread
  cases hread
  rfl

theorem ofBool_inj {b b' : Bool} (h : ofBool b = ofBool b') : b = b' := by
  have htext := Document.leaf.inj h
  cases b <;> cases b' <;> first | rfl | exact absurd htext (by decide)

theorem ofPlainText_inj {s t : String} (h : ofPlainText s = ofPlainText t) : s = t := by
  have hchars := congrArg String.toList (Document.leaf.inj h)
  simp only [String.toList_append] at hchars
  exact String.toList_inj.1 (List.append_cancel_left (List.append_cancel_right hchars))

variable {x y : Float32}

theorem ofSingle_of_isFinite (hx : isFinite x = true) :
    ofSingle x = .leaf (Decimal.Layout.document.single x) := if_pos hx

theorem ofSingle_inj (hx : isFinite x = true) (hy : isFinite y = true)
    (h : ofSingle x = ofSingle y) : x = y := by
  rw [ofSingle_of_isFinite hx, ofSingle_of_isFinite hy] at h
  exact Decimal.Layout.document.single_inj hx hy (Document.leaf.inj h)

theorem ofSingle_ne_null (hx : isFinite x = true) : ofSingle x ≠ null := by
  rw [ofSingle_of_isFinite hx]
  intro h
  exact single_ne_of_read hx .malformed (by decide) (Document.leaf.inj h)

/-- A value that may be absent is known if a value is known and never written like an absent one. -/
theorem ofOption_inj {β : Type} {write : β → Document} {o o' : Option β}
    (hnull : ∀ b, (o = some b ∨ o' = some b) → write b ≠ null)
    (hwrite : ∀ b b', o = some b → o' = some b' → write b = write b' → b = b')
    (h : ofOption write o = ofOption write o') : o = o' := by
  cases o with
  | none =>
      cases o' with
      | none => rfl
      | some b' => exact absurd h.symm (hnull b' (Or.inr rfl))
  | some b =>
      cases o' with
      | none => exact absurd h (hnull b (Or.inl rfl))
      | some b' => exact congrArg some (hwrite b b' rfl rfl h)

theorem thermalDocument_inj {t u : ThermalRecord Float32} (ht : t.IsFinite) (hu : u.IsFinite)
    (h : thermalDocument t = thermalDocument u) : t = u := by
  simp only [thermalDocument, Document.record.injEq, List.cons.injEq, Prod.mk.injEq, true_and,
    and_true] at h
  obtain ⟨hlevel, hchange, hdemand⟩ := h
  cases t
  cases u
  congr 1
  · exact ofSingle_inj ht.level hu.level hlevel
  · exact ofSingle_inj ht.change hu.change hchange
  · exact ofSingle_inj ht.demand hu.demand hdemand

theorem recordDocument_inj {r s : Record Float32} (hr : r.IsFinite) (hs : s.IsFinite)
    (hr' : r.timestamp.IsValid) (hs' : s.timestamp.IsValid)
    (h : recordDocument r = recordDocument s) : r = s := by
  simp only [recordDocument, Document.record.injEq, List.cons.injEq, Prod.mk.injEq, true_and,
    and_true] at h
  obtain ⟨hindex, htimestamp, hsolar, hwind, hchp, hgeneration, hdemand, hsurplus, hoff, hlevel,
    hchange, hexport, himport, hthermal⟩ := h
  have hheat := ofOption_inj (fun _ _ => Document.noConfusion)
    (fun t u ht hu => thermalDocument_inj (hr.thermal t ht) (hs.thermal u hu)) hthermal
  cases r
  cases s
  congr 1
  · exact ofNat_inj hindex
  · exact hr'.text_inj hs' (ofPlainText_inj htimestamp)
  · exact ofSingle_inj hr.solar hs.solar hsolar
  · exact ofSingle_inj hr.wind hs.wind hwind
  · exact ofSingle_inj hr.chp hs.chp hchp
  · exact ofSingle_inj hr.generation hs.generation hgeneration
  · exact ofSingle_inj hr.demand hs.demand hdemand
  · exact ofSingle_inj hr.surplus hs.surplus hsurplus
  · exact ofBool_inj hoff
  · exact ofSingle_inj hr.batteryLevel hs.batteryLevel hlevel
  · exact ofSingle_inj hr.batteryChange hs.batteryChange hchange
  · exact ofSingle_inj hr.gridExport hs.gridExport hexport
  · exact ofSingle_inj hr.gridImport hs.gridImport himport

theorem map_inj_of_mem {β γ : Type} {f : β → γ} {bs bs' : List β}
    (h : ∀ b ∈ bs, ∀ b' ∈ bs', f b = f b' → b = b') (heq : bs.map f = bs'.map f) : bs = bs' := by
  induction bs generalizing bs' with
  | nil => exact (List.map_eq_nil_iff.1 heq.symm).symm
  | cons b bs ih =>
      obtain ⟨b', bs', rfl, hhead, htail⟩ := List.map_eq_cons_iff.1 heq.symm
      rw [h b List.mem_cons_self b' List.mem_cons_self hhead.symm,
        ih (fun c hc c' hc' => h c (List.mem_cons_of_mem _ hc) c' (List.mem_cons_of_mem _ hc'))
          htail.symm]

/-! ## Runs -/

structure IsFiniteResult (r : Result Float32) : Prop where
  records : ∀ s ∈ r.records, s.IsFinite
  hours : isFinite r.hours = true
  batteryCapacity : isFinite r.batteryCapacity = true
  thermalCapacity : ∀ x, r.thermalCapacity = some x → isFinite x = true
  peakThreshold : ∀ x, r.peakThreshold = some x → isFinite x = true

/-- The timestamps of a run that starts at a valid one are valid. -/
theorem isValid_of_simulate {σ α ω : Type} [Quantity α] [Quantity ω] [Widening α ω] {c : Config α}
    {w : Weather σ α} {s s' : σ} {result : Result α} (hstart : c.start.IsValid)
    (h : simulate c w s = (.ok result, s')) : ∀ r ∈ result.records, r.timestamp.IsValid := by
  intro r hr
  obtain ⟨k, hk⟩ := List.mem_iff_getElem?.1 hr
  obtain ⟨p, stamps, records, -, hstamps, hrecords, rfl⟩ :=
    Config.carryOut?_eq_some_iff.1 (simulate_eq_ok h).2
  obtain ⟨states, -, hlength, hsteps⟩ := Rules.exists_states hrecords
  have hlt : k < (c.inputs stamps p).length := by
    rw [← hlength]
    exact (List.getElem?_eq_some_iff.1 hk).1
  have hx := List.getElem?_eq_getElem hlt
  have hstep := hsteps k _ r hx hk
  have hstamp := (Config.inputAt hx).1
  have hcount : k < c.stepCount :=
    Config.length_clock_timestamps? hstamps ▸ (List.getElem?_eq_some_iff.1 hstamp).1
  rw [Clock.getElem?_timestamps? hstamps hcount] at hstamp
  rw [hstep.timestamp_eq]
  exact hstart.addSeconds? hstamp

theorem resultDocument_inj {r s : Result Float32} (hr : IsFiniteResult r) (hs : IsFiniteResult s)
    (hr' : ∀ q ∈ r.records, q.timestamp.IsValid) (hs' : ∀ q ∈ s.records, q.timestamp.IsValid)
    (h : resultDocument r = resultDocument s) : r = s := by
  simp only [resultDocument, Document.record.injEq, Document.list.injEq, List.cons.injEq,
    Prod.mk.injEq, true_and, and_true] at h
  obtain ⟨hrecords, hhours, hbattery, hthermal, hpeak⟩ := h
  have hnumber {o o' : Option Float32} (ho : ∀ x, o = some x → isFinite x = true)
      (ho' : ∀ x, o' = some x → isFinite x = true)
      (h : ofOption ofSingle o = ofOption ofSingle o') : o = o' :=
    ofOption_inj (fun x hx => ofSingle_ne_null (hx.elim (ho x) (ho' x)))
      (fun x y hx hy => ofSingle_inj (ho x hx) (ho' y hy)) h
  have hsteps := map_inj_of_mem (fun q hq q' hq' => recordDocument_inj (hr.records q hq)
    (hs.records q' hq') (hr' q hq) (hs' q' hq')) hrecords
  cases r
  cases s
  congr 1
  · exact ofSingle_inj hr.hours hs.hours hhours
  · exact ofSingle_inj hr.batteryCapacity hs.batteryCapacity hbattery
  · exact hnumber hr.thermalCapacity hs.thermalCapacity hthermal
  · exact hnumber hr.peakThreshold hs.peakThreshold hpeak

theorem documentText_eq_iff_of_isValid {r s : Result Float32} (hr : IsFiniteResult r)
    (hs : IsFiniteResult s) (hr' : ∀ q ∈ r.records, q.timestamp.IsValid)
    (hs' : ∀ q ∈ s.records, q.timestamp.IsValid) : documentText r = documentText s ↔ r = s := by
  refine ⟨fun h => ?_, congrArg documentText⟩
  have hchars := congrArg String.toList h
  simp only [documentText, String.toList_append] at hchars
  have hpretty : (resultDocument r).pretty = (resultDocument s).pretty :=
    String.toList_inj.1 (List.append_cancel_right hchars)
  have hdocument :=
    pretty_inj (isWritable_resultDocument r) (isWritable_resultDocument s) hpretty
  exact resultDocument_inj hr hs hr' hs' hdocument

/-- Finished runs that start at valid timestamps are known from their documents. -/
theorem documentText_inj_of_simulate {σ ω : Type} [Quantity ω] [Widening Float32 ω]
    {c d : Config Float32} {w v : Weather σ Float32} {t t' u u' : σ} {r s : Result Float32}
    (hc : c.start.IsValid) (hd : d.start.IsValid) (hr : simulate c w t = (.ok r, t'))
    (hs : simulate d v u = (.ok s, u')) (hr' : IsFiniteResult r) (hs' : IsFiniteResult s) :
    documentText r = documentText s ↔ r = s :=
  documentText_eq_iff_of_isValid hr' hs' (isValid_of_simulate hc hr) (isValid_of_simulate hd hs)

/-! ## Leap seconds within a minute -/

/-- The run with every leap second within a minute as the second after it. -/
def settled (r : Result Float32) : Result Float32 :=
  { r with records := r.records.map fun q => { q with timestamp := q.timestamp.settled } }

theorem documentText_settled {r : Result Float32}
    (hr : ∀ q ∈ r.records, q.timestamp.InCalendar) : documentText (settled r) = documentText r := by
  have hrecords : (settled r).records.map recordDocument = r.records.map recordDocument := by
    rw [settled, List.map_map]
    refine List.map_congr_left fun q hq => ?_
    simp only [Function.comp_apply, recordDocument, (hr q hq).text_settled]
  simp only [documentText, resultDocument, hrecords]
  rfl

theorem isFiniteResult_settled {r : Result Float32} (hr : IsFiniteResult r) :
    IsFiniteResult (settled r) where
  records := List.forall_mem_map.2 fun q hq => { hr.records q hq with }
  hours := hr.hours
  batteryCapacity := hr.batteryCapacity
  thermalCapacity := hr.thermalCapacity
  peakThreshold := hr.peakThreshold

theorem isValid_settled {r : Result Float32} (hr : ∀ q ∈ r.records, q.timestamp.InCalendar) :
    ∀ q ∈ (settled r).records, q.timestamp.IsValid :=
  List.forall_mem_map.2 fun q hq => (hr q hq).isValid_settled

theorem documentText_eq_iff_settled {r s : Result Float32} (hr : IsFiniteResult r)
    (hs : IsFiniteResult s) (hr' : ∀ q ∈ r.records, q.timestamp.InCalendar)
    (hs' : ∀ q ∈ s.records, q.timestamp.InCalendar) :
    documentText r = documentText s ↔ settled r = settled s := by
  rw [← documentText_settled hr', ← documentText_settled hs']
  exact documentText_eq_iff_of_isValid (isFiniteResult_settled hr) (isFiniteResult_settled hs)
    (isValid_settled hr') (isValid_settled hs')

/-- The document of a run loses nothing but where a leap second within a minute stands: two runs
with finite numbers have the same text exactly if they are the same once such a leap second is taken
for the second after it. If all leap seconds end a minute, as in what is read and what is reached
from it, the runs are the same, to the sign of a zero, the fraction and the leap second of a
timestamp, and the absence of a value. -/
theorem documentText_inj {r s : Result Float32} (hr : IsFiniteResult r) (hs : IsFiniteResult s)
    (hr' : ∀ q ∈ r.records, q.timestamp.InCalendar)
    (hs' : ∀ q ∈ s.records, q.timestamp.InCalendar) :
    (documentText r = documentText s ↔ settled r = settled s) ∧
      ((∀ q ∈ r.records, q.timestamp.IsValid) → (∀ q ∈ s.records, q.timestamp.IsValid) →
        (documentText r = documentText s ↔ r = s)) :=
  ⟨documentText_eq_iff_settled hr hs hr' hs', documentText_eq_iff_of_isValid hr hs⟩

/-- A record in a leap second, with a negative zero. -/
def leapRecord : Record Float32 where
  index := 0
  timestamp := ⟨⟨0⟩, 86399, 1500000000⟩
  solar := 0
  wind := 1e-10
  chp := 20
  generation := 20
  demand := 3e20
  surplus := -3e20
  generationOff := false
  batteryLevel := 0
  batteryChange := -0
  gridExport := 0
  gridImport := 0.1
  thermal := some ⟨1, 0, 3⟩

def unsignedRecord : Record Float32 := { leapRecord with batteryChange := 0 }

def runOf (r : Record Float32) : Result Float32 := ⟨[r], 0.25, 0, some 1, none⟩

theorem isFinite_leapRecord : leapRecord.IsFinite where
  solar := by decide +kernel
  wind := by decide +kernel
  chp := by decide +kernel
  generation := by decide +kernel
  demand := by decide +kernel
  surplus := by decide +kernel
  batteryLevel := by decide +kernel
  batteryChange := by decide +kernel
  gridExport := by decide +kernel
  gridImport := by decide +kernel
  thermal := by
    rintro heat ⟨⟩
    exact ⟨by decide +kernel, by decide +kernel, by decide +kernel⟩

theorem isFinite_unsignedRecord : unsignedRecord.IsFinite :=
  { isFinite_leapRecord with batteryChange := by decide +kernel }

theorem isFiniteResult_runOf {r : Record Float32} (h : r.IsFinite) : IsFiniteResult (runOf r) where
  records := List.forall_mem_singleton.2 h
  hours := by
    change isFinite (0.25 : Float32) = true
    decide +kernel
  batteryCapacity := by
    change isFinite (0 : Float32) = true
    decide +kernel
  thermalCapacity := by
    rintro x ⟨⟩
    decide +kernel
  peakThreshold := by
    rintro x ⟨⟩

/-- The sign of a zero is seen in the document. -/
theorem documentText_inj_sign :
    documentText (runOf leapRecord) ≠ documentText (runOf unsignedRecord) := by
  have hvalid : ∀ q ∈ (runOf leapRecord).records, q.timestamp.IsValid :=
    List.forall_mem_singleton.2 ⟨⟨by decide, by decide, by decide⟩, by decide⟩
  have hvalid' : ∀ q ∈ (runOf unsignedRecord).records, q.timestamp.IsValid :=
    List.forall_mem_singleton.2 ⟨⟨by decide, by decide, by decide⟩, by decide⟩
  rw [Ne, (documentText_inj (isFiniteResult_runOf isFinite_leapRecord)
    (isFiniteResult_runOf isFinite_unsignedRecord) (fun q hq => (hvalid q hq).toInCalendar)
    fun q hq => (hvalid' q hq).toInCalendar).2 hvalid hvalid']
  decide +kernel

/-- A leap second after the last second but one of a minute has the text of a fraction of the last
second. -/
theorem documentText_of_leap_within_minute :
    ∃ early late : Calendar.Timestamp,
      early = ⟨⟨739191⟩, 43258, 1500000000⟩ ∧ late = ⟨⟨739191⟩, 43259, 500000000⟩ ∧
        early.InCalendar ∧ late.InCalendar ∧
        IsFiniteResult (runOf { leapRecord with timestamp := early }) ∧
        IsFiniteResult (runOf { leapRecord with timestamp := late }) ∧
        documentText (runOf { leapRecord with timestamp := early }) =
          documentText (runOf { leapRecord with timestamp := late }) ∧
        runOf { leapRecord with timestamp := early } ≠
          runOf { leapRecord with timestamp := late } := by
  have hearly : (⟨⟨739191⟩, 43258, 1500000000⟩ : Calendar.Timestamp).InCalendar :=
    ⟨by decide, by decide, by decide⟩
  have hlate : (⟨⟨739191⟩, 43259, 500000000⟩ : Calendar.Timestamp).InCalendar :=
    ⟨by decide, by decide, by decide⟩
  have hfinite (t : Calendar.Timestamp) :
      IsFiniteResult (runOf { leapRecord with timestamp := t }) :=
    isFiniteResult_runOf { isFinite_leapRecord with }
  refine ⟨_, _, rfl, rfl, hearly, hlate, hfinite _, hfinite _, ?_, by decide +kernel⟩
  rw [documentText_eq_iff_settled (hfinite _) (hfinite _) (List.forall_mem_singleton.2 hearly)
    (List.forall_mem_singleton.2 hlate)]
  decide +kernel

end LocalGrid.Export
