import LocalGrid.Fault
import LocalGrid.Quantity

/-!
# Neighbourhoods

The demand series of several buildings, each under the name of its building. The entries are kept
in the order of the names, so the sum adds them in an order that does not depend on the history;
sums of rounded numbers do depend on theirs.
-/

namespace LocalGrid.Demand

/-- Named series in rising order of the names. -/
structure Neighborhood (α : Type) where
  entries : List (String × List α)

inductive SumError where
  /-- There is no building. -/
  | noBuilding
  /-- A building has another number of values than the first one. -/
  | length (name : String) (found expected : Nat)
  deriving DecidableEq, Repr

def SumError.fault : SumError → Fault
  | .noBuilding => ⟨.configuration, "demand.buildings", "no building demand registered"⟩
  | .length name found expected =>
    ⟨.configuration, "demand.buildings." ++ name,
      "has " ++ Nat.repr found ++ " values, expected " ++ Nat.repr expected⟩

namespace Neighborhood

variable {α : Type}

def empty : Neighborhood α := ⟨[]⟩

/-- Puts a series in its place among the entries, instead of the one of the same name if there is
one. -/
def insert (name : String) (series : List α) : List (String × List α) → List (String × List α)
  | [] => [(name, series)]
  | (other, xs) :: rest =>
    if name < other then (name, series) :: (other, xs) :: rest
    else if name = other then (name, series) :: rest
    else (other, xs) :: insert name series rest

/-- Gives a building its series; a later one replaces an earlier one. -/
def add (n : Neighborhood α) (name : String) (series : List α) : Neighborhood α :=
  ⟨insert name series n.entries⟩

def size (n : Neighborhood α) : Nat := n.entries.length

def isEmpty (n : Neighborhood α) : Bool := n.entries.isEmpty

theorem size_empty : (empty : Neighborhood α).size = 0 := rfl

theorem insert_nil (name : String) (series : List α) :
    insert name series [] = [(name, series)] := rfl

variable [Quantity α]

/-- Adds series one after the other, each of which must be as long as the sum so far. -/
def addAll (sum : List α) : List (String × List α) → Except SumError (List α)
  | [] => .ok sum
  | (name, xs) :: rest =>
    if xs.length = sum.length then addAll (List.zipWith (· + ·) sum xs) rest
    else .error (.length name xs.length sum.length)

def total (n : Neighborhood α) : Except SumError (List α) :=
  match n.entries with
  | [] => .error .noBuilding
  | (_, xs) :: rest => addAll xs rest

theorem total_empty : (empty : Neighborhood α).total = .error .noBuilding := rfl

end Neighborhood

end LocalGrid.Demand
