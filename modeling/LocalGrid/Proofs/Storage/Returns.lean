import LocalGrid.Proofs.Quantity.Distance
import LocalGrid.Proofs.Quantity.Monotone
import LocalGrid.Proofs.Storage.Actions

/-!
# What a pool returns

A pool returns by how much its level has moved, rounded. This is never more than there was room for
or than there was stored. But the level was rounded when it was moved, so what is returned can be
more than what was offered or requested: up to twice as much, when this is small beside the level.
-/

namespace LocalGrid.Pool

open Quantity RoundedQuantity

variable {α : Type} [Quantity α] {p q : Pool α} {x returned : α}

section

variable [RoundedQuantity α]

/-! ## Changes of the level -/

/-- What is added to a level fits into the headroom. -/
theorem Follows.change_le_headroom (h : q.Follows p) (hp : p.WellFormed) :
    q.level - p.level ≤ p.headroom := by
  have hfits := h.wellFormed.level_le_capacity
  rw [h.capacity_eq] at hfits
  have hchange := sub_mono h.wellFormed.isFinite_level hp.isFinite_capacity hfits
    (isNumber_of_isFinite hp.isFinite_level)
  exact le_trans hchange (le_positivePart (isNumber_right hchange))

/-- No more is taken from a level than there is. -/
theorem Follows.neg_level_le_change (h : q.Follows p) (hp : p.WellFormed) :
    -p.level ≤ q.level - p.level :=
  neg_le_sub h.wellFormed.isFinite_level hp.isFinite_level h.wellFormed.level_nonneg

/-- What an offer does not fill holds at most the rounded sum. -/
theorem level_le_of_charge? (hp : p.WellFormed) (hx : isFinite (positivePart x) = true)
    (hnot : ¬ p.headroom ≤ positivePart x * p.efficiency)
    (h : p.charge? x = some (returned, q)) :
    q.level ≤ p.level + positivePart x * p.efficiency := by
  obtain ⟨he0, he1⟩ := isShare_iff.1 hp.isShare_efficiency
  have hadd := le_add hp.isFinite_level (mul_share hx (positivePart_nonneg x) he0 he1).1
  rw [charge?_of_not_headroom_le hnot] at h
  obtain ⟨after, hafter, -, rfl⟩ := setLevel?_eq_some_iff.1 h
  exact clamp?_le hafter (isNumber_right hadd) (le_trans hp.level_nonneg hadd)

/-- What a request does not empty holds at least the rounded difference. -/
theorem le_level_of_discharge? (hp : p.WellFormed) (hnot : ¬ p.level ≤ positivePart x)
    (h : p.discharge? x = some (returned, q)) : p.level - positivePart x ≤ q.level := by
  obtain ⟨change, hq⟩ := exists_setLevel?_of_discharge? h
  have hsub := sub_le hp.isFinite_level (positivePart_nonneg x)
  rw [if_neg hnot] at hq
  obtain ⟨after, hafter, -, rfl⟩ := setLevel?_eq_some_iff.1 hq
  exact le_of_clamp? hafter (isNumber_left hsub) (le_trans hsub hp.level_le_capacity)

/-- What is released is the difference of the levels. -/
theorem released_le_iff (hp : p.WellFormed) (h : q.Follows p) {y : α} :
    -(q.level - p.level) ≤ y ↔ p.level - q.level ≤ y :=
  ge_congr_of_value (value?_neg_sub h.wellFormed.isFinite_level hp.isFinite_level)

/-- An offer that covers the headroom is not exceeded. -/
theorem change_le_of_headroom_le (hp : p.WellFormed) (hx : isFinite (positivePart x) = true)
    (h : q.Follows p) (hcovers : p.headroom ≤ positivePart x * p.efficiency) :
    q.level - p.level ≤ positivePart x := by
  obtain ⟨he0, he1⟩ := isShare_iff.1 hp.isShare_efficiency
  exact le_trans (le_trans (h.change_le_headroom hp) hcovers)
    (mul_share hx (positivePart_nonneg x) he0 he1).2

end

/-! ## Packed quantities -/

section

variable [PackedQuantity α]

/-- An offer stores twice as much as is offered at most. -/
theorem charge?_le_twice (hp : p.WellFormed) (hx : isFinite (positivePart x) = true)
    (h : q.Follows p) (hq : p.charge? x = some (returned, q)) :
    q.level - p.level ≤ positivePart x + positivePart x := by
  have hx0 := positivePart_nonneg x
  by_cases hcovers : p.headroom ≤ positivePart x * p.efficiency
  · exact le_trans (change_le_of_headroom_le hp hx h hcovers) (le_add hx hx0)
  · obtain ⟨he0, he1⟩ := isShare_iff.1 hp.isShare_efficiency
    obtain ⟨hoffered, hle⟩ := mul_share hx hx0 he0 he1
    have hfinite := isFinite_of_le_of_le isFinite_zero hx hoffered hle
    have htwice := PackedQuantity.sub_le_add_self_of_le_add hp.isFinite_level hfinite
      h.wellFormed.isFinite_level hoffered (level_le_of_charge? hp hx hcovers hq)
    exact le_trans htwice (add_mono hfinite hx hle hle)

/-- A request releases twice as much as is requested at most. -/
theorem discharge?_le_twice (hp : p.WellFormed) (hx : isFinite (positivePart x) = true)
    (h : q.Follows p) (hq : p.discharge? x = some (returned, q)) :
    p.level - q.level ≤ positivePart x + positivePart x := by
  have hx0 := positivePart_nonneg x
  by_cases hcovers : p.level ≤ positivePart x
  · have hle := sub_le hp.isFinite_level h.wellFormed.level_nonneg
    exact le_trans (le_trans hle hcovers) (le_add hx hx0)
  · exact PackedQuantity.sub_le_add_self hp.isFinite_level hx h.wellFormed.isFinite_level hx0
      (le_level_of_discharge? hp hcovers hq)

/-- A request for at least half of the level is not exceeded. -/
theorem discharge?_le_of_level_le (hp : p.WellFormed) (hx : isFinite (positivePart x) = true)
    (h : q.Follows p) (hq : p.discharge? x = some (returned, q))
    (hhalf : p.level ≤ positivePart x + positivePart x) : p.level - q.level ≤ positivePart x := by
  by_cases hcovers : p.level ≤ positivePart x
  · exact le_trans (sub_le hp.isFinite_level h.wellFormed.level_nonneg) hcovers
  · have hlt := (not_le_iff (isNumber_of_isFinite hp.isFinite_level)
      (isNumber_positivePart x)).1 hcovers
    exact PackedQuantity.sub_le_of_le_add_self hp.isFinite_level hx h.wellFormed.isFinite_level
      (le_of_lt hlt) hhalf (le_level_of_discharge? hp hcovers hq)

end

/-! ## Single precision -/

/-- Whatever was offered to a pool and requested from it before, it returns no more than there was
stored or than there was room for, and at most twice the request or the offer. It returns no more
than the request if that is at least half of the level, and no more than the offer if that covers
the headroom. -/
theorem returned_le_twice {capacity efficiency : Float32} (hcapacity : isFinite capacity = true)
    (hefficiency : isShare efficiency = true) {actions : List (Action Float32)}
    (hactions : ∀ a ∈ actions, a.isTransfer = true) :
    ∃ p, (new capacity efficiency).actAll? actions = some p ∧
      ∀ x, isFinite x = true →
        (∃ released q, p.discharge? x = some (released, q) ∧
          0 ≤ released ∧ released ≤ p.level ∧
          released ≤ positivePart x + positivePart x ∧
          (p.level ≤ positivePart x + positivePart x → released ≤ positivePart x)) ∧
        (∃ stored q, p.charge? x = some (stored, q) ∧
          0 ≤ stored ∧ stored ≤ p.headroom ∧
          stored ≤ positivePart x + positivePart x ∧
          (p.headroom ≤ positivePart x * p.efficiency → stored ≤ positivePart x)) := by
  obtain ⟨p, hp, hfollows⟩ := (wellFormed_new hcapacity hefficiency).actAll? hactions
  have hwell := hfollows.wellFormed
  refine ⟨p, hp, fun x hx => ?_⟩
  have hpart := isFinite_positivePart_of_amount (.inl hx)
  constructor
  · obtain ⟨q, hq, hafter, hle, -⟩ := discharge?_spec hwell x
    have hlevel := hafter.wellFormed
    refine ⟨_, q, hq, nonneg_neg (sub_nonpos hlevel.isFinite_level hle), ?_⟩
    simp only [released_le_iff hwell hafter]
    exact ⟨sub_le hwell.isFinite_level hlevel.level_nonneg,
      discharge?_le_twice hwell hpart hafter hq, discharge?_le_of_level_le hwell hpart hafter hq⟩
  · obtain ⟨q, hq, hafter, hle⟩ := charge?_spec hwell hpart
    exact ⟨_, q, hq, sub_nonneg hafter.wellFormed.isFinite_level hle,
      hafter.change_le_headroom hwell, charge?_le_twice hwell hpart hafter hq,
      change_le_of_headroom_le hwell hpart hafter⟩

/-- Of a pool that was filled up to its capacity, half of what there is can be requested, and no
more than that is released. -/
theorem returned_le_twice_half :
    ∃ released q, (⟨10000, 0.5, 10000⟩ : Pool Float32).discharge? 5000 = some (released, q) ∧
      released ≤ 5000 := by
  obtain ⟨p, hp, hreturned⟩ := @returned_le_twice 10000 0.5 (by decide +kernel)
    (by decide +kernel) [.discharge 1, .charge 30000] (by decide +kernel)
  have hfull : (new (10000 : Float32) 0.5).actAll? [.discharge 1, .charge 30000] =
      some ⟨10000, 0.5, 10000⟩ := by
    decide +kernel
  obtain rfl := Option.some.inj (hp.symm.trans hfull)
  obtain ⟨⟨released, q, hq, -, -, -, hhalf⟩, -⟩ := hreturned 5000 (by decide +kernel)
  have hrequest : positivePart (5000 : Float32) = 5000 := by decide +kernel
  rw [hrequest] at hhalf
  exact ⟨released, q, hq, hhalf (by decide +kernel)⟩

/-- Half of a step of the level moves it by a whole step, down or up, so that nearly twice as much
is released or stored as was asked for. -/
theorem returned_exceeds_amount :
    (∃ q, ((new (10000 : Float32) 1).actAll? [.charge 10000]).bind (·.discharge? 0.0005) =
        some (0.0009765625, q)) ∧
      (∃ q, ((new (10000 : Float32) 1).actAll? [.charge 9000]).bind (·.charge? 0.0005) =
        some (0.0009765625, q)) ∧
      positivePart (0.0005 : Float32) < 0.0009765625 := by
  refine ⟨⟨⟨10000, 1, 9999.9990234375⟩, ?_⟩, ⟨⟨10000, 1, 9000.0009765625⟩, ?_⟩, ?_⟩ <;>
    decide +kernel

end LocalGrid.Pool
