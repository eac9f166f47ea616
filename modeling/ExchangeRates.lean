import ExchangeRates.CommandLine.Arguments
import ExchangeRates.CommandLine.Program
import ExchangeRates.Config.Entry
import ExchangeRates.Config.Origin
import ExchangeRates.Config.Override
import ExchangeRates.Config.RateConfig
import ExchangeRates.Config.RateLists
import ExchangeRates.Config.RateSource
import ExchangeRates.Config.Resolve
import ExchangeRates.Decimal.Exact
import ExchangeRates.Decimal.Fixed
import ExchangeRates.Decimal.Literal
import ExchangeRates.Decimal.Shortest
import ExchangeRates.Duration
import ExchangeRates.Engine.Basic
import ExchangeRates.Engine.Clock
import ExchangeRates.Engine.Lifecycle
import ExchangeRates.Engine.Polling
import ExchangeRates.Engine.Query
import ExchangeRates.Environment
import ExchangeRates.Error
import ExchangeRates.Fault
import ExchangeRates.Feed
import ExchangeRates.Feed.Clock
import ExchangeRates.Feed.Draws
import ExchangeRates.Feed.Scripted
import ExchangeRates.Feed.WalkProfile
import ExchangeRates.Feed.Walking
import ExchangeRates.Fetch
import ExchangeRates.Gate
import ExchangeRates.Json
import ExchangeRates.Json.Fields
import ExchangeRates.Json.Number
import ExchangeRates.Json.Reader
import ExchangeRates.Json.Token
import ExchangeRates.Json.Writer
import ExchangeRates.Latch
import ExchangeRates.Log
import ExchangeRates.Log.Line
import ExchangeRates.Main
import ExchangeRates.RateBook
import ExchangeRates.Scenario
import ExchangeRates.Scenario.BuiltIn
import ExchangeRates.Scenario.Format
import ExchangeRates.Scenario.Load
import ExchangeRates.Settings
import ExchangeRates.SharedEngine
import ExchangeRates.Simulation.Basic
import ExchangeRates.Simulation.Metrics
import ExchangeRates.Simulation.Run
import ExchangeRates.Symbol
import ExchangeRates.Table
import ExchangeRates.Text.Escaped
import ExchangeRates.Text.Quoted
import ExchangeRates.Text.Uppercase
import ExchangeRates.Text.Uppercase.Runs
import ExchangeRates.Text.WhiteSpace
import ExchangeRates.Proofs.Except
import ExchangeRates.Proofs.Engine.Effect
import ExchangeRates.Proofs.Engine.Schedule
import ExchangeRates.Proofs.Engine.Cycle
import ExchangeRates.Proofs.Engine.BookHistory
import ExchangeRates.Proofs.Engine.Coherence
import ExchangeRates.Proofs.Engine.SingleRun
import ExchangeRates.Proofs.Engine.FeedLifecycle
import ExchangeRates.Proofs.Engine.Readiness
import ExchangeRates.Proofs.RateBook.Contents
import ExchangeRates.Proofs.RateBook.Account
import ExchangeRates.Proofs.RateBook.Order
import ExchangeRates.Proofs.Config.Resolve
import ExchangeRates.Proofs.Engine.ConfigHistory
import ExchangeRates.Proofs.Engine.Dollars
import ExchangeRates.Proofs.Engine.UsableRates
import ExchangeRates.Proofs.Engine.MergedSource
import ExchangeRates.Proofs.Engine.Reports
import ExchangeRates.Proofs.Engine.FeedNames
import ExchangeRates.Proofs.Engine.KnownSources
import ExchangeRates.Proofs.Engine.SourceSpelling
import ExchangeRates.Proofs.Engine.CycleSteps
import ExchangeRates.Proofs.Engine.Settling
import ExchangeRates.Proofs.Engine.Cadence
import ExchangeRates.Proofs.Engine.Waiting
import ExchangeRates.Proofs.Engine.Conversion
import ExchangeRates.Proofs.Engine.ConversionOutcome
import ExchangeRates.Proofs.Feed.Readiness
import ExchangeRates.Proofs.Feed.Scripted
import ExchangeRates.Proofs.Gate.Timeline
import ExchangeRates.Proofs.SharedEngine
import ExchangeRates.Proofs.Settings
import ExchangeRates.Proofs.Engine.Pauses
import ExchangeRates.Proofs.Engine.Timeline
import ExchangeRates.Proofs.Engine.Silence
import ExchangeRates.Proofs.Engine.Shutdown
import ExchangeRates.Proofs.Simulation.Run
import ExchangeRates.Proofs.Simulation.Exit
import ExchangeRates.Proofs.Feed.Lifetime
import ExchangeRates.Proofs.Decimal.Literal
import ExchangeRates.Proofs.Decimal.Exact
import ExchangeRates.Proofs.Config.LastEntry
import ExchangeRates.Proofs.Settings.Variables
import ExchangeRates.Proofs.CommandLine.Program
import ExchangeRates.Proofs.Engine.Restart
import ExchangeRates.Proofs.Duration
import ExchangeRates.Proofs.Config.Override
import ExchangeRates.Proofs.Config.OverrideFormat
import ExchangeRates.Proofs.Feed.Reproducible
