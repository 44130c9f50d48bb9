import LocalGrid.Proofs.Command.Outcome

/-!
# Last values

Arguments are read from the left. As long as they are complete options, only the last value of each
option counts, and neither the order of the options nor what was given before matters. The first
argument in the place of an option that is none ends the reading, and what the process then does
depends on nothing else.
-/

namespace LocalGrid.Command

open Options

/-! ## Complete options -/

def helpWords : List String := ["--help", "-h"]

def quietWords : List String := ["--quiet", "-q"]

/-- A text is a number of 64 bits in decimal digits, which a plus may precede. -/
def IsSeed (text : String) (seed : UInt64) : Prop :=
  ∃ digits : List Char, (text.toList = digits ∨ text.toList = '+' :: digits) ∧ digits ≠ [] ∧
    (∀ c ∈ digits, c.isDigit) ∧ Nat.ofDigitChars 10 digits 0 = seed.toNat

/-- A complete option as it is entered. Whatever follows a flag is its value, also a word that would
be an option elsewhere; only a seed has to be a number. -/
inductive Entry where
  | text (flag : Flag) (hflag : flag ≠ .seed) (value : String)
  | seed (value : String) (seed : UInt64) (hvalue : IsSeed value seed)
  | quiet (word : String) (hword : word ∈ quietWords)

namespace Entry

def words : Entry → List String
  | text flag _ value => [flag.word, value]
  | seed value _ _ => [Flag.seed.word, value]
  | quiet word _ => [word]

def text? (flag : Flag) : Entry → Option String
  | text f _ value => if f = flag then some value else none
  | seed _ _ _ => none
  | quiet _ _ => none

def seed? : Entry → Option UInt64
  | text _ _ _ => none
  | seed _ n _ => some n
  | quiet _ _ => none

def isQuiet : Entry → Bool
  | text _ _ _ => false
  | seed _ _ _ => false
  | quiet _ _ => true

end Entry

def words (es : List Entry) : List String := es.flatMap Entry.words

def lastText (flag : Flag) (es : List Entry) : Option String :=
  (es.filterMap (Entry.text? flag)).getLast?

def lastSeed (es : List Entry) : Option UInt64 := (es.filterMap Entry.seed?).getLast?

/-- The same last values, whatever was given before and in whatever order. -/
structure SameLast (es fs : List Entry) : Prop where
  text_eq : ∀ flag, lastText flag es = lastText flag fs
  seed_eq : lastSeed es = lastSeed fs
  quiet_eq : es.any Entry.isQuiet = fs.any Entry.isQuiet

def Options.override (o : Options) (es : List Entry) : Options where
  scenario := (lastText .scenario es).or o.scenario
  preset := (lastText .preset es).or o.preset
  seed := (lastSeed es).or o.seed
  table := (lastText .table es).or o.table
  document := (lastText .document es).or o.document
  quiet := o.quiet || es.any Entry.isQuiet

/-! ## Arguments that end the reading -/

/-- Why no complete option begins a list of arguments. What comes behind does not matter. -/
inductive Offends : List String → Stop → Prop where
  | help (word : String) (hword : word ∈ helpWords) (rest : List String) :
      Offends (word :: rest) .help
  | unknown (word : String) (hflag : ∀ flag : Flag, word ≠ flag.word) (hquiet : word ∉ quietWords)
      (hhelp : word ∉ helpWords) (rest : List String) : Offends (word :: rest) (.unknown word)
  | valueMissing (flag : Flag) : Offends [flag.word] (.valueMissing flag)
  | badSeed (value : String) (hvalue : ∀ seed, ¬ IsSeed value seed) (rest : List String) :
      Offends (Flag.seed.word :: value :: rest) (.badSeed value)

/-- The argument at a place ends the reading: there are complete options before it, and it does not
begin another one. -/
def OffendsAt (arguments : List String) (i : ℕ) (stop : Stop) : Prop :=
  ∃ es tail, arguments = words es ++ tail ∧ (words es).length = i ∧ Offends tail stop

/-! ## Words -/

variable {flag : Flag} {word text value : String} {seed : UInt64} {rest tail tail' : List String}
  {es fs : List Entry} {e f : Entry} {stop stop' : Stop}

theorem word_injective : Function.Injective Flag.word := by
  intro f f' heq
  have hsome := Flag.ofWord?_word f
  rw [heq, Flag.ofWord?_word] at hsome
  exact (Option.some.inj hsome).symm

theorem ofWord?_eq_none_iff : Flag.ofWord? word = none ↔ ∀ flag : Flag, word ≠ flag.word := by
  constructor
  · rintro hnone flag rfl
    rw [Flag.ofWord?_word] at hnone
    cases hnone
  · intro hne
    refine List.find?_eq_none.2 fun flag _ => ?_
    simpa using (hne flag).symm

theorem word_notMem_helpWords (flag : Flag) : flag.word ∉ helpWords := by
  cases flag <;> decide

theorem word_notMem_quietWords (flag : Flag) : flag.word ∉ quietWords := by
  cases flag <;> decide

theorem notMem_helpWords_of_mem_quietWords (hword : word ∈ quietWords) : word ∉ helpWords := by
  simp only [quietWords, List.mem_cons, List.not_mem_nil, or_false] at hword
  rcases hword with rfl | rfl <;> decide

theorem ne_word_of_mem_helpWords (hword : word ∈ helpWords) (flag : Flag) : word ≠ flag.word :=
  fun heq => word_notMem_helpWords flag (heq ▸ hword)

theorem ne_word_of_mem_quietWords (hword : word ∈ quietWords) (flag : Flag) : word ≠ flag.word :=
  fun heq => word_notMem_quietWords flag (heq ▸ hword)

theorem asksHelp_iff : asksHelp word = true ↔ word ∈ helpWords := by
  simp [asksHelp, helpWords]

theorem asksQuiet_iff : asksQuiet word = true ↔ word ∈ quietWords := by
  simp [asksQuiet, quietWords]

/-! ## Seeds -/

def behindPlus (text : String) : List Char :=
  match text.toList with
  | '+' :: rest => rest
  | cs => cs

theorem behindPlus_of_eq {rest : List Char} (h : text.toList = '+' :: rest) :
    behindPlus text = rest := by
  simp only [behindPlus, h]

theorem behindPlus_of_ne (h : ∀ rest, text.toList ≠ '+' :: rest) :
    behindPlus text = text.toList := by
  unfold behindPlus
  split
  · exact absurd ‹_› (h _)
  · rfl

/-- The text is its digits, or a plus and its digits. -/
theorem toList_eq_behindPlus (text : String) :
    text.toList = behindPlus text ∨ text.toList = '+' :: behindPlus text := by
  by_cases h : ∃ rest, text.toList = '+' :: rest
  · obtain ⟨rest, h⟩ := h
    exact Or.inr (by rw [behindPlus_of_eq h, h])
  · exact Or.inl (behindPlus_of_ne (not_exists.1 h)).symm

theorem readSeed?_eq (text : String) :
    readSeed? text =
      if (behindPlus text).isEmpty || !(behindPlus text).all Char.isDigit then none
      else if Nat.ofDigitChars 10 (behindPlus text) 0 < UInt64.size then
        some (.ofNat (Nat.ofDigitChars 10 (behindPlus text) 0))
      else none :=
  rfl

theorem readSeed?_eq_some_iff_behindPlus :
    readSeed? text = some seed ↔ behindPlus text ≠ [] ∧ (∀ c ∈ behindPlus text, c.isDigit) ∧
      Nat.ofDigitChars 10 (behindPlus text) 0 = seed.toNat := by
  rw [readSeed?_eq]
  by_cases hdigits : behindPlus text ≠ [] ∧ ∀ c ∈ behindPlus text, c.isDigit
  · rw [if_neg (by simpa using hdigits), Option.ite_none_right_eq_some]
    constructor
    · rintro ⟨hlt, hseed⟩
      rw [← Option.some.inj hseed, UInt64.toNat_ofNat_of_lt' hlt]
      exact ⟨hdigits.1, hdigits.2, rfl⟩
    · rintro ⟨-, -, hvalue⟩
      rw [hvalue]
      exact ⟨UInt64.toNat_lt_size seed, congrArg some UInt64.ofNat_toNat⟩
  · rw [if_pos (by by_contra hnot; exact hdigits (by simpa using hnot))]
    simp only [reduceCtorEq, false_iff]
    exact fun h => hdigits ⟨h.1, h.2.1⟩

theorem readSeed?_eq_some_iff : readSeed? text = some seed ↔ IsSeed text seed := by
  rw [readSeed?_eq_some_iff_behindPlus]
  constructor
  · exact fun h => ⟨behindPlus text, toList_eq_behindPlus text, h⟩
  · rintro ⟨digits, hplain | hplus, hne, hall, hvalue⟩
    · -- a plus is no digit
      have hdigits : behindPlus text = digits := by
        rw [← hplain]
        refine behindPlus_of_ne fun rest heq => ?_
        exact absurd (hall '+' (hplain ▸ heq ▸ List.mem_cons_self)) (by decide)
      exact hdigits ▸ ⟨hne, hall, hvalue⟩
    · exact behindPlus_of_eq hplus ▸ ⟨hne, hall, hvalue⟩

theorem readSeed?_eq_none_iff : readSeed? text = none ↔ ∀ seed, ¬ IsSeed text seed := by
  rw [Option.eq_none_iff_forall_ne_some]
  exact forall_congr' fun seed => not_congr readSeed?_eq_some_iff

/-! ## One step of the reading -/

section

variable (o : Options)

theorem readFrom_flag (flag : Flag) (value : String) (rest : List String) :
    readFrom o (flag.word :: value :: rest) = (o.set value flag).bind (readFrom · rest) := by
  rw [readFrom, Flag.ofWord?_word]
  rfl

theorem readFrom_flag_nil (flag : Flag) : readFrom o [flag.word] = .error (.valueMissing flag) := by
  rw [readFrom, Flag.ofWord?_word]

theorem readFrom_word (hflag : ∀ flag : Flag, word ≠ flag.word) (rest : List String) :
    readFrom o (word :: rest) =
      if word ∈ helpWords then .error .help
      else if word ∈ quietWords then readFrom { o with quiet := true } rest
      else .error (.unknown word) := by
  simp only [← asksHelp_iff, ← asksQuiet_iff]
  cases rest with
  | nil => rw [readFrom, readFrom, ofWord?_eq_none_iff.2 hflag]
  | cons value rest => rw [readFrom, ofWord?_eq_none_iff.2 hflag]

/-- A text is set whatever it is. -/
theorem set_text (hflag : flag ≠ .seed) (value : String) :
    o.set value flag = .ok (o.override [.text flag hflag value]) := by
  cases flag with
  | seed => exact absurd rfl hflag
  | scenario | preset | table | document =>
      simp [Options.set, override, lastText, lastSeed, Entry.text?, Entry.seed?, Entry.isQuiet]

theorem set_seed (hvalue : IsSeed value seed) :
    o.set value .seed = .ok (o.override [.seed value seed hvalue]) := by
  simp [Options.set, readSeed?_eq_some_iff.2 hvalue, override, lastText, lastSeed, Entry.text?,
    Entry.seed?, Entry.isQuiet]

/-- A complete option is read whole, and it only sets its own value. -/
theorem readFrom_entry_append (e : Entry) (rest : List String) :
    readFrom o (e.words ++ rest) = readFrom (o.override [e]) rest := by
  cases e with
  | text flag hflag value =>
      change readFrom o (flag.word :: value :: rest) = _
      rw [readFrom_flag, set_text o hflag]
      rfl
  | seed value seed hvalue =>
      change readFrom o (Flag.seed.word :: value :: rest) = _
      rw [readFrom_flag, set_seed o hvalue]
      rfl
  | quiet word hword =>
      change readFrom o (word :: rest) = _
      rw [readFrom_word o (ne_word_of_mem_quietWords hword),
        if_neg (notMem_helpWords_of_mem_quietWords hword), if_pos hword]
      simp [override, lastText, lastSeed, Entry.text?, Entry.seed?, Entry.isQuiet]

/-- The reading ends where no complete option begins, whatever was read before. -/
theorem Offends.readFrom_eq (hoffends : Offends tail stop) : readFrom o tail = .error stop := by
  cases hoffends with
  | help word hword rest =>
      rw [readFrom_word o (ne_word_of_mem_helpWords hword), if_pos hword]
  | unknown word hflag hquiet hhelp rest =>
      rw [readFrom_word o hflag, if_neg hhelp, if_neg hquiet]
  | valueMissing flag => exact readFrom_flag_nil o flag
  | badSeed value hvalue rest =>
      rw [readFrom_flag, Options.set, readSeed?_eq_none_iff.2 hvalue]
      rfl

end

/-! ## Whole lists -/

theorem words_cons (e : Entry) (es : List Entry) : words (e :: es) = e.words ++ words es :=
  List.flatMap_cons

/-- The last value is a later one, if there is one. -/
theorem getLast?_filterMap_cons {α : Type} (f : Entry → Option α) (e : Entry) (es : List Entry) :
    ((e :: es).filterMap f).getLast? =
      ((es.filterMap f).getLast?).or (([e].filterMap f).getLast?) := by
  rw [← List.singleton_append, List.filterMap_append, List.getLast?_append]

/-- Options are set one after the other, so that later values replace earlier ones. -/
theorem override_cons (o : Options) (e : Entry) (es : List Entry) :
    o.override (e :: es) = (o.override [e]).override es := by
  simp only [override, lastText, lastSeed, getLast?_filterMap_cons _ e es, Option.or_assoc,
    List.any_cons, List.any_nil, Bool.or_false, Bool.or_assoc]

/-- Complete options are read to their end and leave the last values. -/
theorem readFrom_words_append (o : Options) (es : List Entry) (rest : List String) :
    readFrom o (words es ++ rest) = readFrom (o.override es) rest := by
  induction es generalizing o with
  | nil => simp [words, override, lastText, lastSeed]
  | cons e es ih =>
      rw [words_cons, List.append_assoc, readFrom_entry_append, ih, ← override_cons]

theorem read_words (es : List Entry) : Options.read (words es) = .ok (override {} es) := by
  rw [Options.read, ← List.append_nil (words es), readFrom_words_append, readFrom]

theorem SameLast.override_eq (hsame : SameLast es fs) (o : Options) :
    o.override es = o.override fs := by
  simp only [override, hsame.text_eq, hsame.seed_eq, hsame.quiet_eq]

theorem OffendsAt.read_eq {arguments : List String} {i : ℕ} (h : OffendsAt arguments i stop) :
    Options.read arguments = .error stop := by
  obtain ⟨es, tail, rfl, -, hoffends⟩ := h
  rw [Options.read, readFrom_words_append, hoffends.readFrom_eq]

/-! ## The argument that ends the reading -/

theorem Entry.words_eq_cons (e : Entry) :
    (∃ flag value, e.words = [Flag.word flag, value]) ∨ ∃ word ∈ quietWords, e.words = [word] := by
  cases e with
  | text flag hflag value => exact Or.inl ⟨flag, value, rfl⟩
  | seed value seed hvalue => exact Or.inl ⟨.seed, value, rfl⟩
  | quiet word hword => exact Or.inr ⟨word, hword, rfl⟩

/-- A list of arguments begins with a complete option or with an argument that ends the reading. -/
theorem begins_or_offends (word : String) (rest : List String) :
    (∃ (e : Entry) (tail : List String), word :: rest = e.words ++ tail) ∨
      ∃ stop, Offends (word :: rest) stop := by
  by_cases hflag : ∃ flag : Flag, word = flag.word
  · obtain ⟨flag, rfl⟩ := hflag
    rcases rest with _ | ⟨value, tail⟩
    · exact Or.inr ⟨_, .valueMissing flag⟩
    · by_cases hseed : flag = .seed
      · subst hseed
        by_cases hvalue : ∃ seed, IsSeed value seed
        · obtain ⟨seed, hvalue⟩ := hvalue
          exact Or.inl ⟨.seed value seed hvalue, tail, rfl⟩
        · exact Or.inr ⟨_, .badSeed value (not_exists.1 hvalue) tail⟩
      · exact Or.inl ⟨.text flag hseed value, tail, rfl⟩
  · by_cases hquiet : word ∈ quietWords
    · exact Or.inl ⟨.quiet word hquiet, rest, rfl⟩
    · by_cases hhelp : word ∈ helpWords
      · exact Or.inr ⟨_, .help word hhelp rest⟩
      · exact Or.inr ⟨_, .unknown word (not_exists.1 hflag) hquiet hhelp rest⟩

/-- Arguments are complete options up to an end of the reading, if there is one. -/
theorem exists_words_append (arguments : List String) :
    ∃ es tail, arguments = words es ++ tail ∧ (tail = [] ∨ ∃ stop, Offends tail stop) := by
  -- on the length, since an option takes one argument or two
  induction hlength : arguments.length using Nat.strongRecOn generalizing arguments with
  | ind n ih =>
      rcases arguments with _ | ⟨word, rest⟩
      · exact ⟨[], [], rfl, Or.inl rfl⟩
      · rcases begins_or_offends word rest with ⟨e, after, heq⟩ | hoffends
        · have hshorter : after.length < n := by
            rw [← hlength, heq]
            rcases e.words_eq_cons with ⟨flag, value, he⟩ | ⟨word, -, he⟩ <;>
              rw [he, List.length_append, List.length_cons] <;> omega
          obtain ⟨es, tail, rfl, htail⟩ := ih after.length hshorter after rfl
          exact ⟨e :: es, tail, by rw [heq, words_cons, List.append_assoc], htail⟩
        · exact ⟨[], word :: rest, rfl, Or.inr hoffends⟩

/-- A complete option does not end the reading. -/
theorem Offends.ne_entry_append {arguments : List String} (hoffends : Offends arguments stop)
    (e : Entry) (rest : List String) : arguments ≠ e.words ++ rest := by
  intro heq
  cases hoffends with
  | help word hword after =>
      rcases e.words_eq_cons with ⟨flag, value, he⟩ | ⟨word', hword', he⟩ <;> rw [he] at heq
      · exact ne_word_of_mem_helpWords hword flag (List.cons.inj heq).1
      · exact notMem_helpWords_of_mem_quietWords hword' ((List.cons.inj heq).1 ▸ hword)
  | unknown word hflag hquiet hhelp after =>
      rcases e.words_eq_cons with ⟨flag, value, he⟩ | ⟨word', hword', he⟩ <;> rw [he] at heq
      · exact hflag flag (List.cons.inj heq).1
      · exact hquiet ((List.cons.inj heq).1 ▸ hword')
  | valueMissing flag =>
      rcases e.words_eq_cons with ⟨flag', value, he⟩ | ⟨word', hword', he⟩ <;> rw [he] at heq
      · cases (List.cons.inj heq).2
      · exact ne_word_of_mem_quietWords hword' flag (List.cons.inj heq).1.symm
  | badSeed value hvalue after =>
      cases e with
      | text flag hflag value' => exact hflag (word_injective (List.cons.inj heq).1).symm
      | seed value' seed hvalue' =>
          obtain rfl := (List.cons.inj (List.cons.inj heq).2).1
          exact hvalue seed hvalue'
      | quiet word hword => exact ne_word_of_mem_quietWords hword .seed (List.cons.inj heq).1.symm

theorem entry_append_inj (heq : e.words ++ tail = f.words ++ tail') :
    e.words = f.words ∧ tail = tail' := by
  -- the first word tells how many arguments belong to an option
  have hlength : e.words.length = f.words.length := by
    rcases e.words_eq_cons with ⟨flag, value, he⟩ | ⟨word, hword, he⟩ <;>
      rcases f.words_eq_cons with ⟨flag', value', hf⟩ | ⟨word', hword', hf⟩ <;>
      rw [he, hf] at heq ⊢
    · rfl
    · exact absurd (List.cons.inj heq).1.symm (ne_word_of_mem_quietWords hword' flag)
    · exact absurd (List.cons.inj heq).1 (ne_word_of_mem_quietWords hword flag')
    · rfl
  exact List.append_inj heq hlength

/-- No complete option reaches beyond the argument that ends the reading. -/
theorem words_prefix_of_offends (hoffends : Offends tail stop)
    (heq : words es ++ tail = words fs ++ tail') : words fs <+: words es := by
  induction es generalizing fs with
  | nil =>
      cases fs with
      | nil => exact List.prefix_rfl
      | cons f fs =>
          rw [words_cons, List.append_assoc] at heq
          exact absurd heq (hoffends.ne_entry_append f _)
  | cons e es ih =>
      cases fs with
      | nil => exact List.nil_prefix
      | cons f fs =>
          rw [words_cons, words_cons, List.append_assoc, List.append_assoc] at heq
          obtain ⟨hword, hrest⟩ := entry_append_inj heq
          rw [words_cons, words_cons, hword]
          exact (List.prefix_append_right_inj _).2 (ih hrest)

/-- At most one argument ends the reading, and for one reason. -/
theorem OffendsAt.unique {arguments : List String} {i j : ℕ} (hi : OffendsAt arguments i stop)
    (hj : OffendsAt arguments j stop') : j = i ∧ stop' = stop := by
  have hstop : stop' = stop := by
    have hread := hi.read_eq
    rw [hj.read_eq] at hread
    exact Except.error.inj hread
  obtain ⟨es, tail, rfl, rfl, hoffends⟩ := hi
  obtain ⟨fs, tail', heq, rfl, hoffends'⟩ := hj
  exact ⟨Nat.le_antisymm (words_prefix_of_offends hoffends heq).length_le
    (words_prefix_of_offends hoffends' heq.symm).length_le, hstop⟩

theorem ne_words_of_offendsAt {arguments : List String} {i : ℕ} (h : OffendsAt arguments i stop)
    (es : List Entry) : arguments ≠ words es := by
  rintro rfl
  have hread := h.read_eq
  rw [read_words] at hread
  cases hread

theorem exists_offendsAt {arguments : List String} (hother : ∀ es, arguments ≠ words es) :
    ∃ i stop, OffendsAt arguments i stop := by
  obtain ⟨es, tail, rfl, rfl | ⟨stop, hoffends⟩⟩ := exists_words_append arguments
  · exact absurd (List.append_nil _) (hother es)
  · exact ⟨_, stop, es, tail, rfl, rfl, hoffends⟩

/-! ## Processes -/

section

variable {σ : Type} (write : String → String → StateM σ (Except FileError Unit))

/-- Of complete options, given in any order and as often as one likes, the options of the run are
the last values, so that the process is the same for all arguments with these last values. Any other
arguments have a leftmost one that does not fit, which is where complete options end, and nothing
but this one decides what the process does: it writes nothing and shows nothing but the help text if
that is asked for, and else it fails with a message about the argument. -/
theorem last_values_count (files : Files) (today : Calendar.Day) (disk : σ) :
    let process := fun arguments => ((plan files today arguments).perform write).run disk
    (∀ es, Options.read (words es) = .ok
      { scenario := lastText .scenario es, preset := lastText .preset es, seed := lastSeed es,
        table := lastText .table es, document := lastText .document es,
        quiet := es.any Entry.isQuiet }) ∧
    (∀ es fs, SameLast es fs → process (words es) = process (words fs)) ∧
    ∀ arguments, (∀ es, arguments ≠ words es) → ∃ i stop, OffendsAt arguments i stop ∧
      (∀ j other, OffendsAt arguments j other → j = i ∧ other = stop) ∧
      (stop = .help → process arguments = (⟨0, "", unlines helpLines⟩, disk)) ∧
      (stop ≠ .help → process arguments = (⟨1, "", unlines stop.lines⟩, disk)) := by
  refine ⟨fun es => ?_, fun es fs hsame => ?_, fun arguments hother => ?_⟩
  · rw [read_words]
    simp [override]
  · have hread : Options.read (words es) = Options.read (words fs) := by
      rw [read_words, read_words, hsame.override_eq]
    simp only [plan, hread]
  · obtain ⟨i, stop, hoffends⟩ := exists_offendsAt hother
    refine ⟨i, stop, hoffends, fun j other h => hoffends.unique h, ?_, fun hhelp => ?_⟩
    · rintro rfl
      simp only [plan_of_error hoffends.read_eq, perform_stop]
      rfl
    · simp only [plan_of_error hoffends.read_eq, perform_stop, Stop.code_of_ne_help hhelp]

end

/-- The hour at noon with another seed. -/
def givenOnce : List Entry :=
  [.seed "7" 7 (readSeed?_eq_some_iff.1 (by decide)), .text .scenario (by decide) "noon.toml",
    .quiet "-q" (by decide)]

/-- A scenario and a seed that others take the place of. The first scenario looks like a request for
help. -/
def givenTwice : List Entry :=
  [.text .scenario (by decide) "--help", .quiet "--quiet" (by decide),
    .seed "12" 12 (readSeed?_eq_some_iff.1 (by decide)), .text .scenario (by decide) "noon.toml",
    .seed "+007" 7 (readSeed?_eq_some_iff.1 (by decide))]

def negativeSeed : List String := ["--preset", "--help", "--seed", "-1", "--help"]

def helpBeforeUnknown : List String := ["--quiet", "-h", "--bogus"]

theorem offendsAt_negativeSeed : OffendsAt negativeSeed 2 (.badSeed "-1") :=
  ⟨[.text .preset (by decide) "--help"], ["--seed", "-1", "--help"], rfl, rfl,
    .badSeed "-1" (readSeed?_eq_none_iff.1 (by decide)) ["--help"]⟩

theorem offendsAt_helpBeforeUnknown : OffendsAt helpBeforeUnknown 1 .help :=
  ⟨[.quiet "--quiet" (by decide)], ["-h", "--bogus"], rfl, rfl, .help "-h" (by decide) ["--bogus"]⟩

/-- The values that are given in vain do not change the hour at noon. A negative seed fails although
a request for help comes after it, and a request for help succeeds although an unknown argument
comes after it. -/
theorem last_values_count_noon :
    (SameLast givenTwice givenOnce ∧
      noonProcess (words givenTwice) = noonProcess (words givenOnce)) ∧
    ((∀ es, negativeSeed ≠ words es) ∧ noonProcess negativeSeed =
      (⟨1, "", "error: --seed value \"-1\" is not a valid u64\n"⟩, [("a.csv", "old")])) ∧
    (∀ es, helpBeforeUnknown ≠ words es) ∧
      noonProcess helpBeforeUnknown = (⟨0, "", unlines helpLines⟩, [("a.csv", "old")]) := by
  obtain ⟨-, hsame, hother⟩ :=
    last_values_count writeBeside noonFile ⟨738000⟩ [("a.csv", "old")]
  have hlast : SameLast givenTwice givenOnce :=
    ⟨fun flag => by cases flag <;> decide, by decide, by decide⟩
  have hseed := ne_words_of_offendsAt offendsAt_negativeSeed
  have hhelp := ne_words_of_offendsAt offendsAt_helpBeforeUnknown
  refine ⟨⟨hlast, hsame _ _ hlast⟩, ⟨hseed, ?_⟩, hhelp, ?_⟩
  · obtain ⟨i, stop, -, hunique, -, hfails⟩ := hother negativeSeed hseed
    obtain ⟨-, rfl⟩ := hunique 2 _ offendsAt_negativeSeed
    exact hfails (by decide)
  · obtain ⟨i, stop, -, hunique, hshows, -⟩ := hother helpBeforeUnknown hhelp
    exact hshows (hunique 1 _ offendsAt_helpBeforeUnknown).2.symm

end LocalGrid.Command
