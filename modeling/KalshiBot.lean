import KalshiBot.Auth.Signer
import KalshiBot.Config
import KalshiBot.ConfigEdits
import KalshiBot.CrossVenue.BareDates
import KalshiBot.CrossVenue.BruteForce
import KalshiBot.CrossVenue.ComparatorWords
import KalshiBot.CrossVenue.DatePhrases
import KalshiBot.CrossVenue.DateSentences
import KalshiBot.CrossVenue.DrawWording
import KalshiBot.CrossVenue.Fees
import KalshiBot.CrossVenue.FillPieces
import KalshiBot.CrossVenue.GenericSides
import KalshiBot.CrossVenue.Ladders
import KalshiBot.CrossVenue.LineMarkets
import KalshiBot.CrossVenue.Markets
import KalshiBot.CrossVenue.Matching
import KalshiBot.CrossVenue.MissingData
import KalshiBot.CrossVenue.NormalForm
import KalshiBot.CrossVenue.NormalizedWords
import KalshiBot.CrossVenue.Numerals
import KalshiBot.CrossVenue.OutcomeOrder
import KalshiBot.CrossVenue.Retrieval
import KalshiBot.CrossVenue.SameNames
import KalshiBot.CrossVenue.ScoreBounds
import KalshiBot.CrossVenue.SettlementGate
import KalshiBot.CrossVenue.Synonyms
import KalshiBot.CrossVenue.Text
import KalshiBot.CrossVenue.Thresholds
import KalshiBot.CrossVenue.TighterConfigs
import KalshiBot.CrossVenue.TokenWording
import KalshiBot.Execution.ExchangeWrites
import KalshiBot.Execution.OrderDispatcher
import KalshiBot.Execution.PositionSizing
import KalshiBot.Execution.Resolutions
import KalshiBot.Ipc.AuditTrail
import KalshiBot.Ipc.ExecutorServer
import KalshiBot.Ipc.ExecutorSocket
import KalshiBot.Ipc.ExposureCaps
import KalshiBot.Ipc.FireJobs
import KalshiBot.Ipc.FireRows
import KalshiBot.Ipc.FireTasks
import KalshiBot.Ipc.FloatFires
import KalshiBot.Ipc.GatedDispatch
import KalshiBot.Ipc.InFlight
import KalshiBot.Ipc.LatencyRows
import KalshiBot.Ipc.OrderSizing
import KalshiBot.Ipc.PriceGrid
import KalshiBot.Ipc.Reconnect
import KalshiBot.Ipc.RestartTrail
import KalshiBot.Ipc.ShadowBacklog
import KalshiBot.Ipc.ShadowFires
import KalshiBot.Ipc.StandingOrders
import KalshiBot.Ipc.SwitchStaleness
import KalshiBot.Ipc.WakeDelivery
import KalshiBot.Ipc.WakeFraming
import KalshiBot.Ipc.WakeStream
import KalshiBot.Ipc.WirePrice
import KalshiBot.Library.Backoff
import KalshiBot.Library.BoundedQueue
import KalshiBot.Library.DecimalText
import KalshiBot.Library.Doubles
import KalshiBot.Library.EarliestGrants
import KalshiBot.Library.FileLocks
import KalshiBot.Library.GroupedTotals
import KalshiBot.Library.LatestRows
import KalshiBot.Library.OlderRows
import KalshiBot.Library.RaisingTransactions
import KalshiBot.Library.RateBudget
import KalshiBot.Library.Retry
import KalshiBot.Library.RoundedSums
import KalshiBot.Library.Runs
import KalshiBot.Library.ScriptCuts
import KalshiBot.Library.SpacedWords
import KalshiBot.Library.Sqlite
import KalshiBot.Library.SqliteScripts
import KalshiBot.Library.StableSort
import KalshiBot.Library.TextFiles
import KalshiBot.Library.TextValues
import KalshiBot.Library.TimedHistory
import KalshiBot.Library.Transactions
import KalshiBot.Library.WeightedJaccard
import KalshiBot.Library.WeightedLists
import KalshiBot.Library.YieldingQueue
import KalshiBot.Risk.Admission
import KalshiBot.Risk.AttemptCaps
import KalshiBot.Risk.Calls
import KalshiBot.Risk.DoubleCounting
import KalshiBot.Risk.Drain
import KalshiBot.Risk.ExchangePolls
import KalshiBot.Risk.Exposure
import KalshiBot.Risk.FloatGate
import KalshiBot.Risk.Gate
import KalshiBot.Risk.GroupExposure
import KalshiBot.Risk.SilentChecks
import KalshiBot.Risk.WarmStart
import KalshiBot.Runtime.Clock
import KalshiBot.Runtime.InstanceRuns
import KalshiBot.Runtime.KillSwitch
import KalshiBot.Runtime.SingleInstance
import KalshiBot.Runtime.SwitchCli
import KalshiBot.Runtime.SwitchRuns
import KalshiBot.Telemetry.BindErrors
import KalshiBot.Telemetry.CrashSafety
import KalshiBot.Telemetry.Declarations
import KalshiBot.Telemetry.DropAccounts
import KalshiBot.Telemetry.FillOffers
import KalshiBot.Telemetry.Heartbeats
import KalshiBot.Telemetry.MigratedWrites
import KalshiBot.Telemetry.Migrations
import KalshiBot.Telemetry.OrderTable
import KalshiBot.Telemetry.OrderTrail
import KalshiBot.Telemetry.Pruning
import KalshiBot.Telemetry.Retention
import KalshiBot.Telemetry.Rows
import KalshiBot.Telemetry.Schema
import KalshiBot.Telemetry.SchemaScript
import KalshiBot.Telemetry.Shapes
import KalshiBot.Telemetry.Shutdown
import KalshiBot.Telemetry.WriteQueue
import KalshiBot.Telemetry.WriterThread
import KalshiBot.Transport.BudgetWindows
import KalshiBot.Transport.PromptGrants
import KalshiBot.Transport.RateLimit
import KalshiBot.Transport.RequestTimings
import KalshiBot.Transport.RestClient
import KalshiBot.Transport.Retry
