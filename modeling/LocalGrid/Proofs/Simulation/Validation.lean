import LocalGrid.Fault
import LocalGrid.Proofs.Quantity.Readings
import LocalGrid.Proofs.Simulation.Accepted

/-!
# What is reported of a configuration

The constraints on a configuration stand in an order. A configuration that meets all of them is
accepted, and any other one is refused by the first constraint that it breaks: constraints before
this one are met, and of a series the first entry that breaks it is named.
-/

namespace LocalGrid.Simulation

open Quantity RoundedQuantity

inductive Constraint where
  | steps
  | length (series : Series)
  | magnitude (field : Magnitude)
  | share (field : Share)
  | gate
  | entries (series : Series)
  deriving DecidableEq

namespace Constraint

def order : List Constraint :=
  [.steps, .length .electrical, .length .thermal,
    .magnitude .solarCapacity, .magnitude .windCapacity, .magnitude .chpCapacity,
    .magnitude .batteryCapacity, .magnitude .thermalCapacity, .magnitude .rampRate,
    .share .battery, .share .thermal, .gate, .entries .electrical, .entries .thermal]

theorem mem_order (k : Constraint) : k ∈ order := by
  cases k with
  | steps => decide
  | length series => cases series <;> decide
  | magnitude field => cases field <;> decide
  | share field => cases field <;> decide
  | gate => decide
  | entries series => cases series <;> decide

/-- The capacity of the battery is reported before the gate that needs it. -/
theorem batteryCapacity_mem {before : List Constraint} (h : before <+: order)
    (hgate : .gate ∈ before) : .magnitude .batteryCapacity ∈ before := by
  have hall : ∀ xs ∈ order.inits, .gate ∈ xs → .magnitude .batteryCapacity ∈ xs := by decide
  exact hall before (List.mem_inits _ _ |>.2 h) hgate

/-- The kind of fault: numbers of steps and entries are a matter of shape. -/
def kind : Constraint → FaultKind
  | .steps => .configuration
  | .length _ => .configuration
  | .magnitude _ => .numericDomain
  | .share _ => .numericDomain
  | .gate => .numericDomain
  | .entries _ => .numericDomain

def field : Constraint → String
  | .steps => "step_count"
  | .length .electrical => "demand_series"
  | .length .thermal => "thermal_demand_series"
  | .magnitude .solarCapacity => "solar_capacity"
  | .magnitude .windCapacity => "wind_capacity"
  | .magnitude .chpCapacity => "chp_capacity"
  | .magnitude .batteryCapacity => "battery_capacity"
  | .magnitude .thermalCapacity => "thermal_storage_capacity"
  | .magnitude .rampRate => "ramp_rate"
  | .share .battery => "battery_efficiency"
  | .share .thermal => "thermal_storage_efficiency"
  | .gate => "battery_capacity"
  | .entries .electrical => "demand_series"
  | .entries .thermal => "thermal_demand_series"

end Constraint

def Rejection.position {α : Type} : Rejection α → String
  | .badDemand _ index _ => "[" ++ toString index ++ "]"
  | _ => ""

namespace Config

variable {α : Type} [Quantity α] {c : Config α} {k : Constraint} {r : Rejection α}

def magnitude (c : Config α) : Magnitude → α
  | .solarCapacity => c.solarCapacity
  | .windCapacity => c.windCapacity
  | .chpCapacity => c.chpCapacity
  | .batteryCapacity => c.batteryCapacity
  | .thermalCapacity => c.thermalCapacity
  | .rampRate => c.rampRate

def share (c : Config α) : Share → α
  | .battery => c.batteryEfficiency
  | .thermal => c.thermalEfficiency

def series? (c : Config α) : Series → Option (List α)
  | .electrical => some c.demand
  | .thermal => c.thermalDemand

def Meets (c : Config α) : Constraint → Prop
  | .steps => 0 < c.stepCount
  | .length series => ∀ xs, c.series? series = some xs → xs.length = c.stepCount
  | .magnitude field =>
    0 ≤ c.magnitude field ∧ (field ≠ .rampRate → isFinite (c.magnitude field) = true)
  | .share field => 0 ≤ c.share field ∧ c.share field ≤ 1
  | .gate => c.gating = true → 0 < c.batteryCapacity
  | .entries series =>
    ∀ xs, c.series? series = some xs → ∀ x ∈ xs, isFinite x = true ∧ 0 ≤ x

/-- How a broken constraint is reported: a magnitude as negative if it is not at least zero, and as
infinite otherwise, and a series with the first entry that breaks the constraint. -/
inductive Reports (c : Config α) : Constraint → Rejection α → Prop
  | steps : Reports c .steps .noSteps
  | length {series : Series} {xs : List α} (h : c.series? series = some xs) :
    Reports c (.length series) (.seriesLength series xs.length c.stepCount)
  | negative {field : Magnitude} (h : ¬ 0 ≤ c.magnitude field) :
    Reports c (.magnitude field) (.negative field (c.magnitude field))
  | infinite {field : Magnitude} (h : 0 ≤ c.magnitude field) :
    Reports c (.magnitude field) (.infinite field)
  | share {field : Share} : Reports c (.share field) (.notShare field (c.share field))
  | gate : Reports c .gate .gateWithoutBattery
  | entry {series : Series} {xs : List α} {i : ℕ} {x : α} (h : c.series? series = some xs)
    (hx : xs[i]? = some x) (hbad : ¬ (isFinite x = true ∧ 0 ≤ x))
    (hfirst : ∀ y ∈ xs.take i, isFinite y = true ∧ 0 ≤ y) :
    Reports c (.entries series) (.badDemand series i x)

def FirstBroken (c : Config α) (k : Constraint) : Prop :=
  ∃ before after, Constraint.order = before ++ k :: after ∧ (∀ j ∈ before, c.Meets j) ∧ ¬ c.Meets k

/-! ## The checks by their constraints -/

def check (c : Config α) : Constraint → List (Rejection α)
  | .steps => if c.stepCount = 0 then [.noSteps] else []
  | .length series => (c.series? series).elim [] (checkLength series c.stepCount)
  | .magnitude field => checkMagnitude field (c.magnitude field)
  | .share field => checkShare field (c.share field)
  | .gate => if c.gating = true ∧ c.batteryCapacity ≤ 0 then [.gateWithoutBattery] else []
  | .entries series => (c.series? series).elim [] (checkEntries series)

theorem rejections_eq_flatMap (c : Config α) : c.rejections = Constraint.order.flatMap c.check := by
  simp only [rejections, Constraint.order, List.flatMap_cons, List.flatMap_nil, check, series?,
    magnitude, share, Option.elim_some, List.append_assoc, List.append_nil]

end Config

/-- The first bad entry stands behind good ones only. -/
theorem firstBad?_eq_some {α : Type} [Quantity α] {start index : ℕ} {xs : List α} {x : α}
    (h : firstBad? start xs = some (index, x)) : ∃ i, index = start + i ∧ xs[i]? = some x ∧
      isBadDemand x = true ∧ ∀ y ∈ xs.take i, isBadDemand y = false := by
  induction xs generalizing start with
  | nil => cases h
  | cons y ys ih =>
      rw [firstBad?] at h
      split_ifs at h with hy
      · obtain ⟨rfl, rfl⟩ := Prod.mk.inj (Option.some.inj h)
        exact ⟨0, rfl, rfl, hy, by simp⟩
      · obtain ⟨i, rfl, hx, hbad, hfirst⟩ := ih h
        refine ⟨i + 1, by omega, hx, hbad, ?_⟩
        rw [List.take_succ_cons, List.forall_mem_cons]
        exact ⟨by simpa using hy, hfirst⟩

namespace Config

variable {α : Type} [Quantity α] {c : Config α} {k : Constraint} {r r' : Rejection α}

omit [Quantity α] in
theorem elim_series?_eq_nil_iff {series : Series} {f : List α → List (Rejection α)}
    {P : List α → Prop} (h : ∀ xs, f xs = [] ↔ P xs) :
    (c.series? series).elim [] f = [] ↔ ∀ xs, c.series? series = some xs → P xs := by
  cases c.series? series <;> simp [h]

omit [Quantity α] in
theorem exists_of_head?_elim_series? {series : Series} {f : List α → List (Rejection α)}
    (h : ((c.series? series).elim [] f).head? = some r) :
    ∃ xs, c.series? series = some xs ∧ (f xs).head? = some r := by
  cases hseries : c.series? series with
  | none => simp [hseries] at h
  | some xs => exact ⟨xs, rfl, by simpa [hseries] using h⟩

/-- A constraint has one report. -/
theorem Reports.unique (h : c.Reports k r) (h' : c.Reports k r') : r = r' := by
  cases h with
  | steps =>
      cases h'
      rfl
  | length h =>
      cases h' with
      | length h' => rw [Option.some.inj (h.symm.trans h')]
  | negative h =>
      cases h' with
      | negative => rfl
      | infinite h' => exact absurd h' h
  | infinite h =>
      cases h' with
      | negative h' => exact absurd h h'
      | infinite => rfl
  | share =>
      cases h'
      rfl
  | gate =>
      cases h'
      rfl
  | @entry series xs i x h hx hbad hfirst =>
      cases h' with
      | @entry _ xs' j y h' hy hbad' hfirst' =>
          obtain rfl := Option.some.inj (h.symm.trans h')
          -- an entry before the other one would be good
          obtain rfl : i = j := by
            refine le_antisymm (not_lt.1 fun hlt => hbad' ?_) (not_lt.1 fun hlt => hbad ?_)
            · exact hfirst y (List.mem_of_getElem? (List.getElem?_take_of_lt hlt ▸ hy))
            · exact hfirst' x (List.mem_of_getElem? (List.getElem?_take_of_lt hlt ▸ hx))
          rw [Option.some.inj (hx.symm.trans hy)]

/-- A report has the kind of its constraint, and points into the field of its constraint. -/
theorem Reports.fault {text : α → String} (h : c.Reports k r) :
    (r.fault text).kind = k.kind ∧ (r.fault text).field = k.field ++ r.position := by
  cases h with
  | steps => exact ⟨rfl, rfl⟩
  | @length series => cases series <;> exact ⟨rfl, rfl⟩
  | @negative field => cases field <;> exact ⟨rfl, rfl⟩
  | @infinite field => cases field <;> exact ⟨rfl, rfl⟩
  | @share field => cases field <;> exact ⟨rfl, rfl⟩
  | gate => exact ⟨rfl, rfl⟩
  | @entry series xs i =>
      have hname : Constraint.field (.entries series) = series.name := by cases series <;> rfl
      exact ⟨rfl, by rw [hname, Rejection.fault, Rejection.position, String.append_assoc,
        String.append_assoc, String.append_assoc]⟩

variable [RoundedQuantity α]

/-- Nothing is reported of a constraint that is met. The gate only compares the capacity with zero,
so the capacity has to be a number. -/
theorem check_eq_nil_iff (h : k = .gate → 0 ≤ c.batteryCapacity) :
    c.check k = [] ↔ c.Meets k := by
  cases k with
  | steps =>
      rw [check, Meets, Nat.pos_iff_ne_zero]
      split_ifs with hsteps <;> simp [hsteps]
  | length series => exact elim_series?_eq_nil_iff fun _ => checkLength_eq_nil_iff
  | magnitude field =>
      rw [check, Meets]
      by_cases hfield : field = .rampRate
      · subst hfield
        rw [checkMagnitude_rampRate_eq_nil_iff, isNegative_eq_false_iff]
        simp
      · rw [checkMagnitude_eq_nil_iff hfield, isAmount_iff, and_comm]
        simp [hfield]
  | share field => exact checkShare_eq_nil_iff.trans isShare_iff
  | gate =>
      rw [check, Meets, ← not_le_iff (isNumber_right (h rfl)) isNumber_zero]
      split_ifs with hgate <;> simpa using hgate
  | entries series =>
      refine elim_series?_eq_nil_iff fun xs => checkEntries_eq_nil_iff.trans ?_
      simp only [isBadDemand_eq_false_iff]

theorem reports_of_head?_check (h : (c.check k).head? = some r) : c.Reports k r := by
  cases k with
  | steps =>
      rw [check] at h
      split_ifs at h
      · obtain rfl := Option.some.inj h
        exact .steps
      · cases h
  | length series =>
      obtain ⟨xs, hseries, h⟩ := exists_of_head?_elim_series? h
      rw [checkLength] at h
      split_ifs at h
      · cases h
      · obtain rfl := Option.some.inj h
        exact .length hseries
  | magnitude field =>
      rw [check, checkMagnitude] at h
      split_ifs at h with hnegative hinfinite
      · obtain rfl := Option.some.inj h
        exact .negative fun hle => by simp [isNegative_eq_false_iff.2 hle] at hnegative
      · obtain rfl := Option.some.inj h
        exact .infinite (nonneg_of_not_isNegative (by simpa using hnegative))
      · cases h
  | share field =>
      rw [check, checkShare] at h
      split_ifs at h
      · cases h
      · obtain rfl := Option.some.inj h
        exact .share
  | gate =>
      rw [check] at h
      split_ifs at h
      · obtain rfl := Option.some.inj h
        exact .gate
      · cases h
  | entries series =>
      obtain ⟨xs, hseries, h⟩ := exists_of_head?_elim_series? h
      rw [checkEntries] at h
      split at h
      · next index x hbad =>
        obtain rfl := Option.some.inj h
        obtain ⟨i, rfl, hx, hbad, hfirst⟩ := firstBad?_eq_some hbad
        rw [Nat.zero_add]
        refine .entry hseries hx ?_ fun y hy => isBadDemand_eq_false_iff.1 (hfirst y hy)
        rw [← isBadDemand_eq_false_iff, hbad]
        simp
      · cases h

theorem head?_check_eq_some_iff (h : k = .gate → 0 ≤ c.batteryCapacity) :
    (c.check k).head? = some r ↔ ¬ c.Meets k ∧ c.Reports k r := by
  rw [← check_eq_nil_iff h, ← List.head?_eq_none_iff]
  constructor
  · intro hhead
    exact ⟨by simp [hhead], reports_of_head?_check hhead⟩
  · rintro ⟨hbroken, hreports⟩
    obtain ⟨r', hr'⟩ := Option.ne_none_iff_exists'.1 hbroken
    rw [hr', hreports.unique (reports_of_head?_check hr')]

/-! ## The first constraint -/

/-- Whether the first constraints are met can be read off their checks. -/
theorem forall_check_eq_nil_iff {before : List Constraint} (h : before <+: Constraint.order) :
    (∀ j ∈ before, c.check j = []) ↔ ∀ j ∈ before, c.Meets j := by
  have hnumber : Constraint.gate ∈ before → (∀ j ∈ before, j ≠ .gate → c.Meets j) →
      0 ≤ c.batteryCapacity := fun hgate hall =>
    (hall _ (Constraint.batteryCapacity_mem h hgate) (by simp)).1
  constructor
  · intro hall j hj
    refine (check_eq_nil_iff fun hgate => hnumber (hgate ▸ hj) fun i hi hne => ?_).1 (hall j hj)
    exact (check_eq_nil_iff fun heq => absurd heq hne).1 (hall i hi)
  · intro hall j hj
    exact (check_eq_nil_iff fun hgate => hnumber (hgate ▸ hj) fun i hi _ => hall i hi).2 (hall j hj)

omit [RoundedQuantity α] in
/-- Where the gate is reached, the capacity of the battery is a number. -/
theorem capacity_nonneg {before after : List Constraint}
    (horder : Constraint.order = before ++ k :: after) (hmet : ∀ j ∈ before, c.Meets j)
    (hk : k = .gate) : 0 ≤ c.batteryCapacity := by
  subst hk
  have hprefix : before ++ [.gate] <+: Constraint.order := ⟨after, by simp [horder]⟩
  have hmem := Constraint.batteryCapacity_mem hprefix (by simp)
  have hbattery : c.Meets (.magnitude .batteryCapacity) := hmet _ (by simpa using hmem)
  exact hbattery.1

theorem validate_eq_ok_iff_meets : c.validate = .ok () ↔ ∀ k, c.Meets k := by
  rw [validate_eq_ok_iff, rejections_eq_flatMap, List.flatMap_eq_nil_iff,
    forall_check_eq_nil_iff (List.prefix_refl _)]
  exact forall_congr' fun k => ⟨fun h => h k.mem_order, fun h _ => h⟩

theorem validate_eq_error_iff_reports :
    c.validate = .error r ↔ ∃ k, c.FirstBroken k ∧ c.Reports k r := by
  rw [validate_eq_error_iff, rejections_eq_flatMap, List.head?_flatMap, List.findSome?_eq_some_iff]
  simp only [List.head?_eq_none_iff]
  constructor
  · rintro ⟨before, k, after, horder, hhead, hall⟩
    have hmet := (forall_check_eq_nil_iff ⟨_, horder.symm⟩).1 hall
    obtain ⟨hbroken, hreports⟩ := (head?_check_eq_some_iff (capacity_nonneg horder hmet)).1 hhead
    exact ⟨k, ⟨before, after, horder, hmet, hbroken⟩, hreports⟩
  · rintro ⟨k, ⟨before, after, horder, hmet, hbroken⟩, hreports⟩
    refine ⟨before, k, after, horder, ?_, (forall_check_eq_nil_iff ⟨_, horder.symm⟩).2 hmet⟩
    exact (head?_check_eq_some_iff (capacity_nonneg horder hmet)).2 ⟨hbroken, hreports⟩

end Config

/-! ## Single precision -/

/-- A configuration is accepted if and only if it meets all constraints. Otherwise the report is
the one of the first broken constraint: it has the kind of this constraint, and its path is the
field of this constraint, with the first bad entry where the field is a series. -/
theorem validate_exact (c : Config Float32) (text : Float32 → String) :
    (c.validate = .ok () ↔ ∀ k, c.Meets k) ∧
      ∀ r, c.validate = .error r ↔ ∃ k, c.FirstBroken k ∧ c.Reports k r ∧
        (r.fault text).kind = k.kind ∧ (r.fault text).field = k.field ++ r.position := by
  refine ⟨Config.validate_eq_ok_iff_meets, fun r => ?_⟩
  rw [Config.validate_eq_error_iff_reports]
  refine exists_congr fun k => and_congr_right fun _ => ?_
  exact ⟨fun h => ⟨h, h.fault⟩, fun h => h.1⟩

end LocalGrid.Simulation
