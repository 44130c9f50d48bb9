import LocalGrid.Binary
import LocalGrid.Calendar.Date
import LocalGrid.Calendar.Reading
import LocalGrid.Calendar.Timestamp
import LocalGrid.Clock
import LocalGrid.Command.Options
import LocalGrid.Command.Plan
import LocalGrid.Decimal.Layout
import LocalGrid.Decimal.Reading
import LocalGrid.Decimal.Shortest
import LocalGrid.Demand.Neighborhood
import LocalGrid.Demand.Profile
import LocalGrid.Dispatch
import LocalGrid.Elementary
import LocalGrid.Export.Document
import LocalGrid.Export.Run
import LocalGrid.Fault
import LocalGrid.Files
import LocalGrid.Generator
import LocalGrid.Main
import LocalGrid.Percentile
import LocalGrid.Proofs.Binary.Conversion
import LocalGrid.Proofs.Binary.Ladder
import LocalGrid.Proofs.Binary.Patterns
import LocalGrid.Proofs.Calendar.Date
import LocalGrid.Proofs.Calendar.Grammar
import LocalGrid.Proofs.Calendar.Text
import LocalGrid.Proofs.Calendar.Validity
import LocalGrid.Proofs.Clock
import LocalGrid.Proofs.Clock.Steps
import LocalGrid.Proofs.Clock.Traversal
import LocalGrid.Proofs.Command.LastValues
import LocalGrid.Proofs.Command.Outcome
import LocalGrid.Proofs.Comparison
import LocalGrid.Proofs.Conservation
import LocalGrid.Proofs.Decimal.Interval
import LocalGrid.Proofs.Decimal.Layout
import LocalGrid.Proofs.Decimal.Places
import LocalGrid.Proofs.Decimal.Reading
import LocalGrid.Proofs.Decimal.Shortest
import LocalGrid.Proofs.Demand.History
import LocalGrid.Proofs.Demand.Neighborhood
import LocalGrid.Proofs.Demand.Profile
import LocalGrid.Proofs.Dispatch
import LocalGrid.Proofs.Dispatch.Bounds
import LocalGrid.Proofs.Dispatch.Policies
import LocalGrid.Proofs.Export.Document
import LocalGrid.Proofs.Export.Pretty
import LocalGrid.Proofs.Export.Table
import LocalGrid.Proofs.Peaks
import LocalGrid.Proofs.Percentile
import LocalGrid.Proofs.Percentile.Interpolation
import LocalGrid.Proofs.Percentile.Ranks
import LocalGrid.Proofs.Quantity.Distance
import LocalGrid.Proofs.Quantity.Exact
import LocalGrid.Proofs.Quantity.Monotone
import LocalGrid.Proofs.Quantity.Packed
import LocalGrid.Proofs.Quantity.Readings
import LocalGrid.Proofs.Quantity.Rounded
import LocalGrid.Proofs.Quantity.Same
import LocalGrid.Proofs.Quantity.Special
import LocalGrid.Proofs.Quarters
import LocalGrid.Proofs.Ramp
import LocalGrid.Proofs.Ramp.Window
import LocalGrid.Proofs.Random.Range
import LocalGrid.Proofs.Report.Books
import LocalGrid.Proofs.Report.Days
import LocalGrid.Proofs.Report.Scaling
import LocalGrid.Proofs.Report.Shares
import LocalGrid.Proofs.Report.Start
import LocalGrid.Proofs.Rounding.Arithmetic
import LocalGrid.Proofs.Rounding.Decimal
import LocalGrid.Proofs.Rounding.Mantissa
import LocalGrid.Proofs.Rounding.Nearest
import LocalGrid.Proofs.Rounding.Packed
import LocalGrid.Proofs.Rounding.Unpacked
import LocalGrid.Proofs.Rounding.Whole
import LocalGrid.Proofs.Scaling
import LocalGrid.Proofs.Scenario.Acceptance
import LocalGrid.Proofs.Scenario.Accepted
import LocalGrid.Proofs.Scenario.Diagnosis
import LocalGrid.Proofs.Scenario.DisabledThermal
import LocalGrid.Proofs.Scenario.Entries
import LocalGrid.Proofs.Scenario.Refusals
import LocalGrid.Proofs.Scenario.Reproduction
import LocalGrid.Proofs.Simulation.Accepted
import LocalGrid.Proofs.Simulation.Balance
import LocalGrid.Proofs.Simulation.Capacities
import LocalGrid.Proofs.Simulation.Causality
import LocalGrid.Proofs.Simulation.ClosedGate
import LocalGrid.Proofs.Simulation.Comparison
import LocalGrid.Proofs.Simulation.Completion
import LocalGrid.Proofs.Simulation.Draws
import LocalGrid.Proofs.Simulation.Finiteness
import LocalGrid.Proofs.Simulation.Gate
import LocalGrid.Proofs.Simulation.Levels
import LocalGrid.Proofs.Simulation.OpenGate
import LocalGrid.Proofs.Simulation.PeakShaving
import LocalGrid.Proofs.Simulation.Profiles
import LocalGrid.Proofs.Simulation.QuarterHours
import LocalGrid.Proofs.Simulation.Scaling
import LocalGrid.Proofs.Simulation.Separation
import LocalGrid.Proofs.Simulation.Start
import LocalGrid.Proofs.Simulation.Trace
import LocalGrid.Proofs.Simulation.Unused
import LocalGrid.Proofs.Simulation.Validation
import LocalGrid.Proofs.Splitting
import LocalGrid.Proofs.Storage
import LocalGrid.Proofs.Storage.Actions
import LocalGrid.Proofs.Table.Column
import LocalGrid.Proofs.Table.Rows
import LocalGrid.Proofs.Text.Ascii
import LocalGrid.Proofs.Text.Order
import LocalGrid.Quantity
import LocalGrid.Ramp
import LocalGrid.Random.Draw
import LocalGrid.Random.Stream
import LocalGrid.Report.Basic
import LocalGrid.Report.Text
import LocalGrid.Rounding
import LocalGrid.Scenario.Basic
import LocalGrid.Scenario.Loading
import LocalGrid.Scenario.Problem
import LocalGrid.Scenario.Reading
import LocalGrid.Scenario.Resolution
import LocalGrid.Scenario.Run
import LocalGrid.Setting
import LocalGrid.Simulation.Config
import LocalGrid.Simulation.Profiles
import LocalGrid.Simulation.Record
import LocalGrid.Simulation.Run
import LocalGrid.Storage
import LocalGrid.Table.Column
import LocalGrid.Table.Row
import LocalGrid.Text.Blank
import LocalGrid.Text.Glyphless
import LocalGrid.Text.Quoted
import LocalGrid.Text.Utf8
import LocalGrid.Toml.Blank
import LocalGrid.Toml.Decoding
import LocalGrid.Toml.Document
import LocalGrid.Toml.Key
import LocalGrid.Toml.Moment
import LocalGrid.Toml.Number
import LocalGrid.Toml.Table
import LocalGrid.Toml.Text
import LocalGrid.Toml.Value
import LocalGrid.Weather
