import LocalGrid.Decimal.Layout
import LocalGrid.Report.Basic
import LocalGrid.Scenario.Resolution
import LocalGrid.Simulation.Run

/-!
# Runs of scenarios

A scenario is resolved, simulated with the wind of its model and seed, and reported.
-/

namespace LocalGrid.Scenario

structure Run where
  config : Simulation.Config Float32
  result : Simulation.Result Float32
  report : Report Float32

inductive RunError where
  | refused (reason : Refusal)
  | failed (reason : Simulation.Failure Float32)
  deriving DecidableEq

/-- How a run error is reported; a breakdown and a series beyond memory have no report. -/
def RunError.fault? : RunError → Option Fault
  | .refused reason => reason.fault?
  | .failed (.rejected r) => some (r.fault Decimal.Layout.message.single)
  | .failed .breakdown => none

def wind (c : Simulation.Config Float32) : Wind := .ofModel c.windModel c.seed

def run (files : Files) (today : Calendar.Day) (s : Scenario) : Except RunError Run := do
  let config ← (s.resolve files today).mapError .refused
  let result ← (Simulation.simulate config .standard (wind config)).1.mapError .failed
  pure ⟨config, result, .ofResult result⟩

end LocalGrid.Scenario
