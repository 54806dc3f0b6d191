import TradingAgent.Strategy.RiskExact
import TradingAgent.Backtest.DoubleEntry
import TradingAgent.Backtest.LookAhead
import TradingAgent.Backtest.EndOfRun
import TradingAgent.Lib.Table
import TradingAgent.Lib.Async
import TradingAgent.Lib.PyInt
import TradingAgent.Execution.World
import TradingAgent.Execution.Responses
import TradingAgent.Execution.Approval
import TradingAgent.Execution.Executor
import TradingAgent.Execution.ApprovalSpec
import TradingAgent.Execution.Stages
import TradingAgent.Execution.Placement
import TradingAgent.Execution.Gate
import TradingAgent.Broker.KisClient
import TradingAgent.Execution.Outcome
import TradingAgent.Execution.RiskGate
import TradingAgent.Execution.Modified
import TradingAgent.Execution.Agreement
import TradingAgent.Api.Strategy
import TradingAgent.Execution.Conservation
import TradingAgent.Lib.Related
import TradingAgent.Lib.Drawdown
import TradingAgent.Report.Metrics
import TradingAgent.Backtest.Isolation
import TradingAgent.Backtest.Reported
import TradingAgent.Backtest.MarkToMarket
import TradingAgent.Backtest.BrokerLedger
import TradingAgent.Execution.WebVerify
import TradingAgent.Notification.Delivery
import TradingAgent.Notification.ModifyDialogue
import TradingAgent.Execution.ExitExecutor
import TradingAgent.Scheduler.StopLoss
import TradingAgent.Scheduler.Overlap
import TradingAgent.Scheduler.ExitRun
import TradingAgent.Analysis.Indicators
import TradingAgent.Lib.Admission
import TradingAgent.Strategy.PortfolioState
import TradingAgent.Strategy.SignalGeneration
import TradingAgent.Strategy.BatchLimits
import TradingAgent.Strategy.Sizing
import TradingAgent.Lib.PyDecimal
import TradingAgent.Strategy.DailyLoss
import TradingAgent.Strategy.Snapshots
import TradingAgent.Lib.Calendar
import TradingAgent.Lib.Keys
import TradingAgent.Lib.PyDate
import TradingAgent.Lib.Upsert
import TradingAgent.Lib.CacheAside
import TradingAgent.Data.Cache
import TradingAgent.Data.Analysis
import TradingAgent.Data.Naver
import TradingAgent.Data.Dart
import TradingAgent.Data.Ecos
import TradingAgent.Data.Transparency
import TradingAgent.Data.KisProvider
import TradingAgent.Data.Freshness
import TradingAgent.Data.StockMaster
import TradingAgent.Data.Delisting
import TradingAgent.Analysis.Fundamental
import TradingAgent.Data.Statements
import TradingAgent.Data.NewsOwners
import TradingAgent.Report.Generator
import TradingAgent.Report.Combined
import TradingAgent.Agent.Agents
import TradingAgent.Agent.Orchestrator
import TradingAgent.Backtest.ReplayRoundTrip
import TradingAgent.Scheduler.BuyJobs
import TradingAgent.Lib.Watch
import TradingAgent.Backtest.ExitParity
import TradingAgent.Strategy.ExitConditions
import TradingAgent.Backtest.Trailing
import TradingAgent.Backtest.OrderLimits
import TradingAgent.Lib.RoundTrips
import TradingAgent.Backtest.Outcomes
import TradingAgent.Backtest.NetCash
import TradingAgent.Api.Backtest
import TradingAgent.Api.Slippage
import TradingAgent.Lib.Alike
import TradingAgent.Broker.Mock
import TradingAgent.Broker.Agreement
import TradingAgent.Strategy.SizerCaps
import TradingAgent.Report.Periods
import TradingAgent.Lib.Loop
import TradingAgent.Lib.Relativedelta
import TradingAgent.Backtest.Windows
import TradingAgent.Backtest.WalkForward
import TradingAgent.Backtest.Robustness
import TradingAgent.Backtest.Turns
import TradingAgent.Backtest.TradeCounts
import TradingAgent.Report.MaxDrawdown
import TradingAgent.Lib.SignificantDigits
import TradingAgent.Lib.ExponentRange
import TradingAgent.Lib.Domain
import TradingAgent.Report.Context
import TradingAgent.Report.Figures
import TradingAgent.Report.Calculable
import TradingAgent.Report.Drawdowns
import TradingAgent.Backtest.Reporter
import TradingAgent.Backtest.PeriodReturns
import TradingAgent.Lib.Groups
import TradingAgent.Broker.DailyBars
import TradingAgent.Llm.CostTracker
import TradingAgent.Scheduler.Monitor
import TradingAgent.Scheduler.Alerted
import TradingAgent.Llm.Escalation
import TradingAgent.Llm.RoutingParity
import TradingAgent.Lib.Binary64
import TradingAgent.Analysis.GrowthScore
import TradingAgent.Analysis.Crosses
import TradingAgent.Analysis.Extrema
import TradingAgent.Llm.GeminiStructure
import TradingAgent.Llm.StrictSchema
import TradingAgent.Lib.Pool
import TradingAgent.Lib.Retry
import TradingAgent.Scheduler.History
import TradingAgent.Strategy.Memory
import TradingAgent.Llm.ProviderRetry
import TradingAgent.Broker.KisAuth
import TradingAgent.Broker.KisRequests
import TradingAgent.Lib.Tally
import TradingAgent.Llm.UsageLedger
import TradingAgent.Llm.UsageExact
import TradingAgent.Llm.ConfigCache
import TradingAgent.Llm.ConfigStaleness
import TradingAgent.Strategy.PositionBook
import TradingAgent.Strategy.PositionHistory
import TradingAgent.Analysis.Reversals
import TradingAgent.Analysis.PatternScan
import TradingAgent.Llm.RouterCalls
import TradingAgent.Llm.GeminiInPlace
import TradingAgent.Llm.GeminiVisits
