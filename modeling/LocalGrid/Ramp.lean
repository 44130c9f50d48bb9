import LocalGrid.Quantity

/-!
# Ramp limits

A ramp-limited series follows another one, but moves by at most a given rate from step to step.
Each value is limited against the value before it *after* limiting, so the recursion carries that
value along.
-/

namespace LocalGrid

open Quantity

variable {α : Type} [Quantity α]

def rampFrom? (rate : α) : α → List α → Option (List α)
  | _, [] => some []
  | previous, x :: rest => do
    let next ← clamp? x (previous - rate) (previous + rate)
    let limited ← rampFrom? rate next rest
    pure (next :: limited)

/-- A series limited to a rate. The first value is kept; a rate that is negative or no number is
zero. -/
def ramp? (rate : α) : List α → Option (List α)
  | [] => some []
  | x :: rest => (rampFrom? (positivePart rate) x rest).map (x :: ·)

theorem ramp?_nil (rate : α) : ramp? rate [] = some [] := rfl

theorem rampFrom?_nil (rate previous : α) : rampFrom? rate previous [] = some [] := rfl

theorem length_rampFrom? {rate previous : α} {xs ys : List α}
    (h : rampFrom? rate previous xs = some ys) : ys.length = xs.length := by
  induction xs generalizing previous ys with
  | nil => simp_all [rampFrom?]
  | cons x xs ih =>
    simp only [rampFrom?, Option.bind_eq_bind, Option.bind_eq_some_iff, Option.pure_def,
      Option.some.injEq] at h
    obtain ⟨next, -, limited, hl, rfl⟩ := h
    simp [ih hl]

/-- Limiting keeps the length. -/
theorem length_ramp? {rate : α} {xs ys : List α} (h : ramp? rate xs = some ys) :
    ys.length = xs.length := by
  cases xs with
  | nil => simp_all [ramp?]
  | cons x xs =>
    obtain ⟨limited, hl, rfl⟩ := Option.map_eq_some_iff.1 h
    simp [length_rampFrom? hl]

end LocalGrid
