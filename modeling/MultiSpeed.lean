import MultiSpeed.Api.Requests
import MultiSpeed.Lib.CronText
import MultiSpeed.Lib.CyclicCounter
import MultiSpeed.Lib.Ledger
import MultiSpeed.Lib.Transition
import MultiSpeed.Database.Statements
import MultiSpeed.Database.Replacement
import MultiSpeed.Database.Migrations
import MultiSpeed.Scheduler.Restart
import MultiSpeed.Execution.Jobs
import MultiSpeed.Execution.TerminalWrites
import MultiSpeed.Execution.FailClosed
import MultiSpeed.Execution.Limiter
import MultiSpeed.Retention.Schedule
import MultiSpeed.Retention.Cutoff
import MultiSpeed.Retention.Batches
import MultiSpeed.Retention.Cleanups
import MultiSpeed.Execution.Overlap
import MultiSpeed.Statistics.Identity
import MultiSpeed.Statistics.Conservation
import MultiSpeed.Api.Refusal
import MultiSpeed.Api.Isolation
import MultiSpeed.Database.Timestamps
import MultiSpeed.Events.Order
import MultiSpeed.Statistics.Limits
import MultiSpeed.Lib.Program
import MultiSpeed.Api.FixedServers
import MultiSpeed.Api.Freshness
import MultiSpeed.Api.Capacity
import MultiSpeed.Providers.RuntimeLocks
import MultiSpeed.Providers.Terms
import MultiSpeed.Providers.CustomEndpoints
import MultiSpeed.Providers.Discovery
import MultiSpeed.Providers.PinnedRuns
import MultiSpeed.Api.TrustedHosts
import MultiSpeed.Api.Dashboard
import MultiSpeed.Api.RateWindows
import MultiSpeed.Web.ValidateCron
import MultiSpeed.Web.CronAgreement
import MultiSpeed.Web.ReportingDates
import MultiSpeed.Scheduler.NextRuns
import MultiSpeed.Providers.BinaryInstall
import MultiSpeed.Execution.Cancellation
import MultiSpeed.Api.Preflight
import MultiSpeed.Providers.Sanitizing
import MultiSpeed.Providers.Runner
import MultiSpeed.Statistics.Summaries
import MultiSpeed.Api.Metrics
import MultiSpeed.Network.Resolvers
import MultiSpeed.Providers.ServerLines
import MultiSpeed.Database.Listing
import MultiSpeed.Providers.Cloudflare
import MultiSpeed.Execution.Measurements
import MultiSpeed.Lib.EventStream
import MultiSpeed.Events.Readers
import MultiSpeed.Api.EventStream
import MultiSpeed.Lib.Delimited
import MultiSpeed.Api.Exports
import MultiSpeed.Lib.Announcements
import MultiSpeed.Network.Discovery
import MultiSpeed.Api.ManualRuns
import MultiSpeed.Providers.CloudflareBudget
import MultiSpeed.Api.NormalForms
import MultiSpeed.Api.Portable
import MultiSpeed.Api.Backups
import MultiSpeed.Lib.QueryStrings
import MultiSpeed.Api.Queries
import MultiSpeed.Web.Requests
