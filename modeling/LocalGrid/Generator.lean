import LocalGrid.Quantity
import LocalGrid.Weather

/-!
# Generators

The output of the three generators for one step. A capacity below zero counts as none.
-/

namespace LocalGrid

open Quantity

inductive Generator where
  | solar
  | wind
  | chp
  deriving DecidableEq, Repr

def Generator.label : Generator → String
  | .solar => "Solar"
  | .wind => "Wind"
  | .chp => "CHP"

variable {σ α : Type} [Quantity α]

def installed (capacity : α) : α := positivePart capacity

def solarOutput (w : Weather σ α) (capacity : α) (hour : Nat) : α :=
  installed capacity * w.daylight hour

def windOutput (capacity draw : α) : α := installed capacity * abs draw

/-- CHP output, the same in every step. -/
def chpOutput (capacity : α) : α := installed capacity

end LocalGrid
