import LocalGrid.Calendar.Reading
import LocalGrid.Proofs.Decimal.Reading
import LocalGrid.Proofs.Text.Ascii
import Mathlib.Data.List.TakeWhile

/-!
# The texts of timestamps

Which texts are read as a timestamp. A text consists of its parts and of the marks between them, and
blanks may stand before every number and every mark, and at the end. What is read off a text is one
of its parts in front of a rest. Conversely, a part is read off a text if what follows it does not
start with a digit, and neither a mark nor a blank is one; so the parts of a text are found again.
-/

namespace LocalGrid

/-- What succeeds in two parts succeeds in each of them. -/
theorem exists_of_bind {ε β γ : Type} {x : Except ε β} {f : β → Except ε γ} {c : γ}
    (h : x >>= f = .ok c) : ∃ b, x = .ok b ∧ f b = .ok c := by
  cases x with
  | error e => cases h
  | ok b => exact ⟨b, rfl, h⟩

namespace Calendar

open Decimal

/-! ## Parts of texts -/

def IsBlanks (cs : List Char) : Prop := ∀ c ∈ cs, Text.isBlank c = true

theorem isBlanks_nil : IsBlanks [] := fun _ h => nomatch h

inductive IsMark (mark : Char) : List Char → Prop
  | after {blanks : List Char} (hblanks : IsBlanks blanks) : IsMark mark (blanks ++ [mark])

inductive IsField (low high : ℕ) : List Char → ℕ → Prop
  | after {blanks ds : List Char} (hblanks : IsBlanks blanks) (hds : IsDigits ds) (hne : ds ≠ [])
      (hlength : ds.length ≤ 2) (hlow : low ≤ valueOf ds) (hhigh : valueOf ds ≤ high) :
      IsField low high (blanks ++ ds) (valueOf ds)

/-- A year of up to four digits, or with a sign and any number of them. -/
inductive IsYear : List Char → ℤ → Prop
  | unsigned {blanks ds : List Char} (hblanks : IsBlanks blanks) (hds : IsDigits ds)
      (hne : ds ≠ []) (hlength : ds.length ≤ 4) : IsYear (blanks ++ ds) (valueOf ds)
  | minus {blanks ds : List Char} (hblanks : IsBlanks blanks) (hds : IsDigits ds)
      (hne : ds ≠ []) : IsYear (blanks ++ '-' :: ds) (-(valueOf ds : ℤ))
  | plus {blanks ds : List Char} (hblanks : IsBlanks blanks) (hds : IsDigits ds)
      (hne : ds ≠ []) : IsYear (blanks ++ '+' :: ds) (valueOf ds)

/-- A fraction of a second in nanoseconds. It may be left out, and its digits past the ninth do not
count. -/
inductive IsFraction : List Char → ℕ → Prop
  | none : IsFraction [] 0
  | point {ds : List Char} (hds : IsDigits ds) (hne : ds ≠ []) :
      IsFraction ('.' :: ds) (valueOf (ds.take 9) * 10 ^ (9 - ds.length))

/-- The timestamp of a date and a time. The second `60` is a leap second. -/
def Timestamp.ofClock (d : Date) (hour minute second nanos : ℕ) : Timestamp :=
  if second = 60 then ⟨d.toDay, hour * 3600 + minute * 60 + 59, nanos + 1000000000⟩
  else ⟨d.toDay, hour * 3600 + minute * 60 + second, nanos⟩

/-- A text of a timestamp: the numbers of a date that exists and is reached, and those of a time. -/
inductive Timestamp.IsText : List Char → Timestamp → Prop
  | parts {year dash month dash' day mark hour colon minute colon' second fraction blanks :
        List Char} {d : Date} {h m s n : ℕ}
      (hyear : IsYear year d.year) (hdash : IsMark '-' dash)
      (hmonth : IsField 1 12 month d.month) (hdash' : IsMark '-' dash')
      (hday : IsField 1 31 day d.day) (hmark : IsMark 'T' mark)
      (hhour : IsField 0 23 hour h) (hcolon : IsMark ':' colon)
      (hminute : IsField 0 59 minute m) (hcolon' : IsMark ':' colon')
      (hsecond : IsField 0 60 second s) (hfraction : IsFraction fraction n)
      (hblanks : IsBlanks blanks) (hexists : d.exists = true)
      (hrange : d.toDay.inRange = true) :
      IsText (year ++ (dash ++ (month ++ (dash' ++ (day ++ (mark ++ (hour ++ (colon ++
        (minute ++ (colon' ++ (second ++ (fraction ++ blanks)))))))))))) (ofClock d h m s n)

theorem IsField.bounds {low high n : ℕ} {text : List Char} (h : IsField low high text n) :
    low ≤ n ∧ n ≤ high := by
  obtain ⟨-, -, -, -, hlow, hhigh⟩ := h
  exact ⟨hlow, hhigh⟩

theorem Timestamp.ofClock_eq {d : Date} {hour minute second nanos : ℕ} (h : second ≤ 60) :
    ofClock d hour minute second nanos =
      ⟨d.toDay, hour * 3600 + minute * 60 + (second - second / 60),
        nanos + second / 60 * 1000000000⟩ := by
  unfold ofClock
  split_ifs with hleap
  · rw [hleap]
  · have hnone : second / 60 = 0 := by omega
    rw [hnone, Nat.sub_zero, Nat.zero_mul, Nat.add_zero]

/-! ## What follows a number -/

def NoDigit (cs : List Char) : Prop := ∀ c ∈ cs.head?, c.isDigit = false

variable {cs ds text rest : List Char} {c : Char} {n low high : ℕ} {y : ℤ}

theorem noDigit_nil : NoDigit [] := fun _ h => nomatch h

theorem noDigit_cons (hc : c.isDigit = false) : NoDigit (c :: rest) := fun d hd => by
  obtain rfl := Option.some.inj hd
  exact hc

theorem isBlank_of_isDigit (h : c.isDigit = true) : Text.isBlank c = false := by
  obtain ⟨hlow, hhigh⟩ := Char.isDigit_iff_toNat.1 h
  simp only [Text.isBlank, Bool.or_eq_false_iff, Bool.and_eq_false_iff, decide_eq_false_iff_not,
    beq_eq_false_iff_ne]
  change 48 ≤ _ at hlow
  change _ ≤ 57 at hhigh
  omega

theorem isDigit_of_isBlank (h : Text.isBlank c = true) : c.isDigit = false := by
  by_contra hdigit
  rw [isBlank_of_isDigit (eq_true_of_ne_false hdigit)] at h
  cases h

theorem IsBlanks.noDigit_append {blanks : List Char} (h : IsBlanks blanks) (hrest : NoDigit rest) :
    NoDigit (blanks ++ rest) := by
  cases blanks with
  | nil => exact hrest
  | cons c blanks => exact noDigit_cons (isDigit_of_isBlank (h c List.mem_cons_self))

theorem IsMark.noDigit_append {mark : Char} (h : IsMark mark text) (hmark : mark.isDigit = false)
    (rest : List Char) : NoDigit (text ++ rest) := by
  obtain ⟨hblanks⟩ := h
  rw [List.append_assoc]
  exact hblanks.noDigit_append (noDigit_cons hmark)

theorem IsFraction.noDigit_append {blanks : List Char} (h : IsFraction text n)
    (hblanks : IsBlanks blanks) : NoDigit (text ++ blanks) := by
  cases h with
  | none => simpa using hblanks.noDigit_append noDigit_nil
  | point => exact noDigit_cons rfl

theorem trimStart_of_isBlanks (h : IsBlanks text) : Text.trimStart text = [] :=
  List.dropWhile_eq_nil_iff.2 h

theorem trimStart_cons {blanks : List Char} (h : IsBlanks blanks) (hc : Text.isBlank c = false)
    (rest : List Char) : Text.trimStart (blanks ++ c :: rest) = c :: rest := by
  rw [Text.trimStart, List.dropWhile_append_of_pos h]
  exact List.dropWhile_cons_of_neg (by simp [hc])

theorem isBlanks_of_trimStart (h : Text.trimStart cs = []) : IsBlanks cs :=
  fun c hc => List.dropWhile_eq_nil_iff.1 h c hc

theorem exists_blanks (cs : List Char) :
    ∃ blanks, IsBlanks blanks ∧ cs = blanks ++ Text.trimStart cs :=
  ⟨_, fun _ hc => List.mem_takeWhile_imp hc, (List.takeWhile_append_dropWhile).symm⟩

/-! ## Numbers -/

/-- A text starts with a run of digits, which may be empty. -/
theorem exists_run (cs : List Char) : ∃ ds tail, IsDigits ds ∧ NoDigit tail ∧ cs = ds ++ tail := by
  refine ⟨cs.takeWhile Char.isDigit, cs.dropWhile Char.isDigit,
    fun _ hc => List.mem_takeWhile_imp hc, fun c hc => ?_,
    (List.takeWhile_append_dropWhile).symm⟩
  have hhead := List.head?_dropWhile_not Char.isDigit cs
  rw [Option.mem_def.1 hc] at hhead
  simpa using hhead

theorem isDigits_take (h : IsDigits ds) (k : ℕ) : IsDigits (ds.take k) := fun c hc =>
  h c (List.mem_of_mem_take hc)

theorem takeWhile_run (hds : IsDigits ds) (hrest : NoDigit rest) :
    (ds ++ rest).takeWhile Char.isDigit = ds := by
  rw [List.takeWhile_append_of_pos hds]
  cases rest with
  | nil => exact List.append_nil ds
  | cons c tail =>
      have hc := hrest c rfl
      rw [List.takeWhile_cons_of_neg (by simp [hc]), List.append_nil]

namespace Reading

variable {width : ℕ} {limit : Option ℕ}

theorem digits_some_append (width : ℕ) (hds : IsDigits ds) (hne : ds ≠ []) (hrest : NoDigit rest) :
    digits (some width) (ds ++ rest) = .ok (valueOf (ds.take width), ds.drop width ++ rest) := by
  obtain ⟨c, tail, rfl⟩ := List.exists_cons_of_ne_nil hne
  have hrun := takeWhile_run hds hrest
  have hdrop : (c :: tail ++ rest).drop ((c :: tail).take width).length =
      (c :: tail).drop width ++ rest := by
    conv_lhs => rw [← List.take_append_drop width (c :: tail), List.append_assoc]
    rw [List.take_append_drop, List.drop_left]
  rw [List.cons_append] at hrun hdrop ⊢
  simp only [digits, hds c List.mem_cons_self, if_true, hrun, hdrop]
  rfl

theorem digits_none_append (hds : IsDigits ds) (hne : ds ≠ []) (hrest : NoDigit rest) :
    digits none (ds ++ rest) = .ok (valueOf ds, rest) := by
  obtain ⟨c, tail, rfl⟩ := List.exists_cons_of_ne_nil hne
  have hrun := takeWhile_run hds hrest
  rw [List.cons_append] at hrun ⊢
  simp only [digits, hds c List.mem_cons_self, if_true, hrun]
  rw [← List.cons_append, List.drop_left]
  rfl

theorem digits_of_noDigit (h : NoDigit cs) (out : ℕ × List Char) : digits limit cs ≠ .ok out := by
  cases cs with
  | nil => exact fun h => nomatch h
  | cons c cs => simp [digits, h c rfl]

theorem exists_of_digits_some (h : digits (some width) cs = .ok (n, rest)) :
    ∃ ds tail, IsDigits ds ∧ ds ≠ [] ∧ NoDigit tail ∧ cs = ds ++ tail ∧
      n = valueOf (ds.take width) ∧ rest = ds.drop width ++ tail := by
  obtain ⟨ds, tail, hds, htail, rfl⟩ := exists_run cs
  have hne : ds ≠ [] := by
    rintro rfl
    exact digits_of_noDigit htail _ h
  rw [digits_some_append width hds hne htail] at h
  obtain ⟨rfl, rfl⟩ := Prod.mk.inj (Except.ok.inj h)
  exact ⟨ds, tail, hds, hne, htail, rfl, rfl, rfl⟩

theorem exists_of_digits_none (h : digits none cs = .ok (n, rest)) :
    ∃ ds, IsDigits ds ∧ ds ≠ [] ∧ cs = ds ++ rest ∧ n = valueOf ds := by
  obtain ⟨ds, tail, hds, htail, rfl⟩ := exists_run cs
  have hne : ds ≠ [] := by
    rintro rfl
    exact digits_of_noDigit htail _ h
  rw [digits_none_append hds hne htail] at h
  obtain ⟨rfl, rfl⟩ := Prod.mk.inj (Except.ok.inj h)
  exact ⟨ds, hds, hne, rfl, rfl⟩

/-! ## What is read -/

theorem isMark_of_separator (h : separator c cs = .ok rest) :
    ∃ text, IsMark c text ∧ cs = text ++ rest := by
  obtain ⟨blanks, hblanks, hcs⟩ := exists_blanks cs
  unfold separator at h
  split at h
  · cases h
  · next d tail htrim =>
    split_ifs at h with hd
    obtain rfl := Except.ok.inj h
    refine ⟨blanks ++ [c], .after hblanks, ?_⟩
    rw [hcs, htrim, hd, List.append_assoc, List.singleton_append]

theorem isField_of_field (h : field low high cs = .ok (n, rest)) :
    ∃ text, IsField low high text n ∧ cs = text ++ rest := by
  obtain ⟨blanks, hblanks, hcs⟩ := exists_blanks cs
  obtain ⟨⟨m, after⟩, hdigits, h⟩ := exists_of_bind h
  dsimp only at h
  split_ifs at h with hrange
  obtain ⟨rfl, rfl⟩ := Prod.mk.inj (Except.ok.inj h)
  obtain ⟨ds, tail, hds, hne, -, htrim, rfl, rfl⟩ := exists_of_digits_some hdigits
  refine ⟨blanks ++ ds.take 2, .after hblanks (isDigits_take hds 2) ?_ (List.length_take_le _ _)
    hrange.1 hrange.2, ?_⟩
  · simpa using hne
  · rw [hcs, htrim, List.append_assoc, ← List.append_assoc (ds.take 2), List.take_append_drop]

theorem isYear_of_year (h : year cs = .ok (y, rest)) :
    ∃ text, IsYear text y ∧ cs = text ++ rest := by
  obtain ⟨blanks, hblanks, hcs⟩ := exists_blanks cs
  unfold year at h
  split at h
  · next tail htrim =>
    obtain ⟨⟨m, after⟩, hdigits, h⟩ := exists_of_bind h
    dsimp only [bind, Except.bind, pure, Except.pure] at h
    split_ifs at h
    obtain ⟨rfl, rfl⟩ := Prod.mk.inj (Except.ok.inj h)
    obtain ⟨ds, hds, hne, rfl, rfl⟩ := exists_of_digits_none hdigits
    exact ⟨_, .minus hblanks hds hne, by rw [hcs, htrim]; simp⟩
  · next tail htrim =>
    obtain ⟨⟨m, after⟩, hdigits, h⟩ := exists_of_bind h
    dsimp only [bind, Except.bind, pure, Except.pure] at h
    split_ifs at h
    obtain ⟨rfl, rfl⟩ := Prod.mk.inj (Except.ok.inj h)
    obtain ⟨ds, hds, hne, rfl, rfl⟩ := exists_of_digits_none hdigits
    exact ⟨_, .plus hblanks hds hne, by rw [hcs, htrim]; simp⟩
  · obtain ⟨⟨m, after⟩, hdigits, h⟩ := exists_of_bind h
    dsimp only [bind, Except.bind, pure, Except.pure] at h
    split_ifs at h
    obtain ⟨rfl, rfl⟩ := Prod.mk.inj (Except.ok.inj h)
    obtain ⟨ds, tail, hds, hne, -, htrim, rfl, rfl⟩ := exists_of_digits_some hdigits
    refine ⟨blanks ++ ds.take 4, .unsigned hblanks (isDigits_take hds 4) (by simpa using hne)
      (List.length_take_le _ _), ?_⟩
    rw [hcs, htrim, List.append_assoc, ← List.append_assoc (ds.take 4), List.take_append_drop]

theorem fraction_point (hds : IsDigits ds) (hne : ds ≠ []) (hrest : NoDigit rest) :
    fraction ('.' :: (ds ++ rest)) =
      .ok (valueOf (ds.take 9) * 10 ^ (9 - ds.length), rest) := by
  have hused : 9 - ((ds ++ rest).length - (ds.drop 9 ++ rest).length) = 9 - ds.length := by
    simp only [List.length_append, List.length_drop]
    omega
  have htail : (ds.drop 9 ++ rest).dropWhile Char.isDigit = rest := by
    rw [List.dropWhile_append_of_pos fun c hc => hds c (List.mem_of_mem_drop hc)]
    cases rest with
    | nil => rfl
    | cons c rest => exact List.dropWhile_cons_of_neg (by simp [hrest c rfl])
  rw [fraction, digits_some_append 9 hds hne hrest]
  simp only [bind, Except.bind, pure, Except.pure, hused, htail]
  rfl

theorem isFraction_of_fraction (h : fraction cs = .ok (n, rest)) :
    ∃ text, IsFraction text n ∧ cs = text ++ rest := by
  unfold fraction at h
  split at h
  · next tail =>
    obtain ⟨out, hdigits, -⟩ := exists_of_bind h
    obtain ⟨ds, after, hds, hne, hafter, rfl, -, -⟩ := exists_of_digits_some hdigits
    have hfraction := fraction_point hds hne hafter
    rw [fraction] at hfraction
    obtain ⟨rfl, rfl⟩ := Prod.mk.inj (Except.ok.inj (h.symm.trans hfraction))
    exact ⟨_, .point hds hne, rfl⟩
  · obtain ⟨rfl, rfl⟩ := Prod.mk.inj (Except.ok.inj h)
    exact ⟨[], .none, rfl⟩

/-! ## What can be read -/

theorem separator_append (h : IsMark c text) (hc : Text.isBlank c = false) (rest : List Char) :
    separator c (text ++ rest) = .ok rest := by
  obtain @⟨blanks, hblanks⟩ := h
  rw [separator, List.append_assoc, List.singleton_append, trimStart_cons hblanks hc]
  exact if_pos rfl

theorem trimStart_digits {blanks : List Char} (h : IsBlanks blanks) (hds : IsDigits ds)
    (hne : ds ≠ []) (rest : List Char) : Text.trimStart (blanks ++ (ds ++ rest)) = ds ++ rest := by
  obtain ⟨c, tail, rfl⟩ := List.exists_cons_of_ne_nil hne
  exact trimStart_cons h (isBlank_of_isDigit (hds c List.mem_cons_self)) _

theorem field_append (h : IsField low high text n) (hrest : NoDigit rest) :
    field low high (text ++ rest) = .ok (n, rest) := by
  obtain ⟨hblanks, hds, hne, hlength, hlow, hhigh⟩ := h
  rw [field, List.append_assoc, trimStart_digits hblanks hds hne, digits_some_append 2 hds hne hrest,
    List.take_of_length_le hlength, List.drop_of_length_le hlength]
  exact if_pos ⟨hlow, hhigh⟩

theorem year_append (h : IsYear text y) (hrest : NoDigit rest)
    (hbounds : Int32.minValue.toInt ≤ y ∧ y ≤ Int32.maxValue.toInt) :
    year (text ++ rest) = .ok (y, rest) := by
  cases h with
  | @unsigned blanks ds hblanks hds hne hlength =>
      have hdigits := digits_some_append 4 hds hne hrest
      rw [List.take_of_length_le hlength, List.drop_of_length_le hlength] at hdigits
      rw [year, List.append_assoc, trimStart_digits hblanks hds hne]
      obtain ⟨c, tail, rfl⟩ := List.exists_cons_of_ne_nil hne
      have hc := hds c List.mem_cons_self
      -- a digit is no sign
      split
      · next heq =>
        obtain rfl := (List.cons.inj heq).1
        cases hc
      · next heq =>
        obtain rfl := (List.cons.inj heq).1
        cases hc
      · rw [hdigits]
        exact if_pos hbounds
  | @minus blanks ds hblanks hds hne =>
      simp only [year, List.append_assoc, List.cons_append,
        trimStart_cons hblanks (show Text.isBlank '-' = false by decide),
        digits_none_append hds hne hrest]
      exact if_pos hbounds
  | @plus blanks ds hblanks hds hne =>
      simp only [year, List.append_assoc, List.cons_append,
        trimStart_cons hblanks (show Text.isBlank '+' = false by decide),
        digits_none_append hds hne hrest]
      exact if_pos hbounds

theorem fraction_append {blanks : List Char} (h : IsFraction text n) (hblanks : IsBlanks blanks) :
    fraction (text ++ blanks) = .ok (n, blanks) := by
  cases h with
  | none =>
      rw [List.nil_append]
      cases blanks with
      | nil => rfl
      | cons c blanks =>
          have hc := hblanks c List.mem_cons_self
          unfold fraction
          split
          · next heq =>
            obtain rfl := (List.cons.inj heq).1
            cases hc
          · rfl
  | point hds hne =>
      have hend := hblanks.noDigit_append noDigit_nil
      rw [List.append_nil] at hend
      exact fraction_point hds hne hend

/-- A year that the calendar reaches is a signed word of 32 bits. -/
theorem year_bounds {d : Date} (hexists : d.exists = true) (h : d.toDay.inRange = true) :
    Int32.minValue.toInt ≤ d.year ∧ d.year ≤ Int32.maxValue.toInt := by
  have hmin : Int32.minValue.toInt = -2147483648 := rfl
  have hmax : Int32.maxValue.toInt = 2147483647 := rfl
  have hfirst : firstDay.number = -95745824 := by decide
  have hlast : lastDay.number = 95745704 := by decide
  have hday : d.day ≤ 31 := by
    simp only [Date.exists, Bool.and_eq_true, decide_eq_true_eq] at hexists
    exact hexists.2.trans (by unfold daysInMonth; split_ifs <;> decide)
  simp only [Day.inRange, hfirst, hlast, Bool.and_eq_true, decide_eq_true_eq, Date.toDay] at h
  rw [hmin, hmax]
  split_ifs at h <;> omega

end Reading

/-! ## Timestamps -/

namespace Timestamp

open Reading

variable {t : Timestamp} {s : String}

theorem isText_of_read (h : read s = .ok t) : IsText s.toList t := by
  obtain ⟨⟨year, cs⟩, hread, h⟩ := exists_of_bind h
  obtain ⟨cs₁, hread₁, h⟩ := exists_of_bind h
  obtain ⟨⟨month, cs₂⟩, hread₂, h⟩ := exists_of_bind h
  obtain ⟨cs₃, hread₃, h⟩ := exists_of_bind h
  obtain ⟨⟨day, cs₄⟩, hread₄, h⟩ := exists_of_bind h
  obtain ⟨cs₅, hread₅, h⟩ := exists_of_bind h
  obtain ⟨⟨hour, cs₆⟩, hread₆, h⟩ := exists_of_bind h
  obtain ⟨cs₇, hread₇, h⟩ := exists_of_bind h
  obtain ⟨⟨minute, cs₈⟩, hread₈, h⟩ := exists_of_bind h
  obtain ⟨cs₉, hread₉, h⟩ := exists_of_bind h
  obtain ⟨⟨second, cs₁₀⟩, hread₁₀, h⟩ := exists_of_bind h
  obtain ⟨⟨nanos, cs₁₁⟩, hread₁₁, hend⟩ := exists_of_bind h
  dsimp only at hend
  obtain ⟨_, hyear, hcs⟩ := isYear_of_year hread
  obtain ⟨_, hdash, rfl⟩ := isMark_of_separator hread₁
  obtain ⟨_, hmonth, rfl⟩ := isField_of_field hread₂
  obtain ⟨_, hdash', rfl⟩ := isMark_of_separator hread₃
  obtain ⟨_, hday, rfl⟩ := isField_of_field hread₄
  obtain ⟨_, hmark, rfl⟩ := isMark_of_separator hread₅
  obtain ⟨_, hhour, rfl⟩ := isField_of_field hread₆
  obtain ⟨_, hcolon, rfl⟩ := isMark_of_separator hread₇
  obtain ⟨_, hminute, rfl⟩ := isField_of_field hread₈
  obtain ⟨_, hcolon', rfl⟩ := isMark_of_separator hread₉
  obtain ⟨_, hsecond, rfl⟩ := isField_of_field hread₁₀
  obtain ⟨_, hfraction, rfl⟩ := isFraction_of_fraction hread₁₁
  split at hend
  · cases hend
  · next hblanks =>
    split at hend
    · cases hend
    · next hdate =>
      obtain rfl := Except.ok.inj hend
      simp only [Bool.not_eq_true', Bool.not_eq_false, Bool.or_eq_true, not_or] at hblanks hdate
      rw [← ofClock_eq hsecond.bounds.2, hcs]
      exact .parts hyear hdash hmonth hdash' hday hmark hhour hcolon hminute hcolon' hsecond
        hfraction (isBlanks_of_trimStart (List.isEmpty_iff.1 hblanks)) hdate.1 hdate.2

/-- The texts of a timestamp are those that are read as it. -/
theorem read_eq_ok_iff : read s = .ok t ↔ IsText s.toList t := by
  refine ⟨isText_of_read, fun h => ?_⟩
  generalize hcs : s.toList = cs at h
  obtain ⟨hyear, hdash, hmonth, hdash', hday, hmark, hhour, hcolon, hminute, hcolon', hsecond,
    hfraction, hblanks, hexists, hrange⟩ := h
  have hline : Text.isBlank '-' = false := by decide
  have hdots : Text.isBlank ':' = false := by decide
  have hletter : Text.isBlank 'T' = false := by decide
  -- behind a number stands a mark, the point of a fraction or a blank, and none of them is a digit
  rw [read, hcs, ofClock_eq hsecond.bounds.2]
  simp only [year_append hyear (hdash.noDigit_append rfl _) (year_bounds hexists hrange),
    separator_append hdash hline, field_append hmonth (hdash'.noDigit_append rfl _),
    separator_append hdash' hline, field_append hday (hmark.noDigit_append rfl _),
    separator_append hmark hletter, field_append hhour (hcolon.noDigit_append rfl _),
    separator_append hcolon hdots, field_append hminute (hcolon'.noDigit_append rfl _),
    separator_append hcolon' hdots, field_append hsecond (hfraction.noDigit_append hblanks),
    fraction_append hfraction hblanks, bind, Except.bind]
  simp [hexists, hrange, pure, Except.pure, trimStart_of_isBlanks hblanks]

/-- A text is one of no other timestamp. -/
theorem IsText.unique {cs : List Char} {u : Timestamp} (ht : IsText cs t) (hu : IsText cs u) :
    t = u := by
  rw [← String.toList_ofList (l := cs)] at ht hu
  exact Except.ok.inj ((read_eq_ok_iff.2 ht).symm.trans (read_eq_ok_iff.2 hu))

end Timestamp

end Calendar

end LocalGrid
