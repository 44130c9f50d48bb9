import LocalGrid.Clock
import Mathlib.Data.List.Basic

/-!
# The timestamps of a clock

A clock has its timestamps exactly if every remaining step lies in the calendar, and then it has one
for each of them.
-/

namespace LocalGrid

namespace Clock

section

variable {β γ δ : Type}

theorem mapM_isSome_iff {f : β → Option γ} {xs : List β} :
    (xs.mapM f).isSome = true ↔ ∀ x ∈ xs, (f x).isSome = true := by
  constructor
  · intro h x hx
    by_contra hnot
    rw [mapM_eq_none_of_mem hx (Option.not_isSome_iff_eq_none.1 hnot)] at h
    exact absurd h (by simp)
  · intro h
    induction xs with
    | nil => rfl
    | cons x xs ih =>
        obtain ⟨y, hy⟩ := Option.isSome_iff_exists.1 (h x List.mem_cons_self)
        obtain ⟨ys, hys⟩ := Option.isSome_iff_exists.1
          (ih fun z hz => h z (List.mem_cons_of_mem _ hz))
        simp [List.mapM_cons, hy, hys]

theorem length_of_mapM_eq_some {f : β → Option γ} {xs : List β} {ys : List γ}
    (h : xs.mapM f = some ys) : ys.length = xs.length := by
  induction xs generalizing ys with
  | nil =>
      obtain rfl : [] = ys := Option.some.inj h
      rfl
  | cons x xs ih =>
      simp only [List.mapM_cons, Option.bind_eq_bind, Option.bind_eq_some_iff, Option.pure_def,
        Option.some.injEq] at h
      obtain ⟨y, -, rest, hrest, rfl⟩ := h
      simp [ih hrest]

theorem mapM_eq_some_map {f : β → Option γ} {g : β → γ} {xs : List β}
    (h : ∀ x ∈ xs, f x = some (g x)) : xs.mapM f = some (xs.map g) := by
  induction xs with
  | nil => rfl
  | cons x xs ih =>
      simp [List.mapM_cons, h x List.mem_cons_self, ih fun y hy => h y (List.mem_cons_of_mem _ hy)]

/-- Where all values of a series are found, the first ones are found from the first arguments. -/
theorem mapM_take {f : β → Option γ} {xs : List β} {ys : List γ} (h : xs.mapM f = some ys)
    (k : ℕ) : (xs.take k).mapM f = some (ys.take k) := by
  induction xs generalizing ys k with
  | nil =>
      obtain rfl : [] = ys := Option.some.inj h
      simp
  | cons x xs ih =>
      simp only [List.mapM_cons, Option.bind_eq_bind, Option.bind_eq_some_iff, Option.pure_def,
        Option.some.injEq] at h
      obtain ⟨y, hy, rest, hrest, rfl⟩ := h
      cases k with
      | zero => rfl
      | succ k => simp [List.mapM_cons, hy, ih hrest]

/-- A value that was found stands where its argument stood. -/
theorem getElem?_of_mapM_eq_some {f : β → Option γ} {xs : List β} {ys : List γ}
    (h : xs.mapM f = some ys) (i : ℕ) : ys[i]? = xs[i]?.bind f := by
  induction xs generalizing ys i with
  | nil =>
      obtain rfl : [] = ys := Option.some.inj h
      simp
  | cons x xs ih =>
      simp only [List.mapM_cons, Option.bind_eq_bind, Option.bind_eq_some_iff, Option.pure_def,
        Option.some.injEq] at h
      obtain ⟨y, hy, rest, hrest, rfl⟩ := h
      cases i with
      | zero => simp [hy]
      | succ i => simpa using ih hrest i

/-- What is done to every value of a series can be done before or after all have been found. -/
theorem map_mapM {f : β → Option γ} (g : γ → δ) (xs : List β) :
    (xs.mapM f).map (List.map g) = xs.mapM fun x => (f x).map g := by
  induction xs with
  | nil => rfl
  | cons x xs ih =>
      rw [List.mapM_cons, List.mapM_cons, ← ih]
      cases f x with
      | none => rfl
      | some y => cases xs.mapM f <;> rfl

end

theorem timestamps?_eq_mapM (c : Clock) :
    c.timestamps? = (List.range' c.current (c.total - c.current)).mapM fun i =>
      c.timestamp? (UInt64.ofNat i) := by
  rw [timestamps?, remaining?_eq_mapM, map_mapM]
  simp [Function.comp_def]

theorem timestamps?_isSome_iff {c : Clock} :
    c.timestamps?.isSome = true ↔
      ∀ i, c.current ≤ i → i < c.total → (c.timestamp? (UInt64.ofNat i)).isSome = true := by
  rw [timestamps?_eq_mapM, mapM_isSome_iff]
  refine forall_congr' fun i => ?_
  rw [List.mem_range'_1]
  constructor
  · intro h hlo hhi
    exact h ⟨hlo, by omega⟩
  · rintro h ⟨hlo, hhi⟩
    exact h hlo (by omega)

theorem length_timestamps? {c : Clock} {stamps : List Calendar.Timestamp}
    (h : c.timestamps? = some stamps) : stamps.length = c.total - c.current := by
  rw [timestamps?_eq_mapM] at h
  rw [length_of_mapM_eq_some h, List.length_range']

theorem getElem?_timestamps? {start : Calendar.Timestamp} {d : StepDuration} {n i : ℕ}
    {stamps : List Calendar.Timestamp} (h : (new start d n).timestamps? = some stamps)
    (hi : i < n) : stamps[i]? = (new start d n).timestamp? (UInt64.ofNat i) := by
  rw [timestamps?_eq_mapM] at h
  rw [getElem?_of_mapM_eq_some h, List.getElem?_range' (by simpa [new] using hi), Option.bind_some]
  simp [new]

/-- A clock that stops earlier has the first of the timestamps. -/
theorem timestamps?_take {c : Clock} {stamps : List Calendar.Timestamp}
    (h : c.timestamps? = some stamps) {n : ℕ} (hn : n ≤ c.total) :
    { c with total := n }.timestamps? = some (stamps.take (n - c.current)) := by
  have hrange : (List.range' c.current (c.total - c.current)).take (n - c.current) =
      List.range' c.current (n - c.current) := by
    apply List.ext_getElem
    · simp only [List.length_take, List.length_range']
      omega
    · intro i hi hi'
      simp
  rw [timestamps?_eq_mapM] at h ⊢
  rw [← hrange]
  exact mapM_take h _

end Clock

end LocalGrid
