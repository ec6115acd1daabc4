import MarketDataGateway.Candles.Minute
import MarketDataGateway.Lib.Transition
import MarketDataGateway.Lib.SortedSet
import MarketDataGateway.Lib.Watch
import MarketDataGateway.Archive.Persist
import MarketDataGateway.Candles.Series
import MarketDataGateway.Candles.Direct
import MarketDataGateway.Archive.Reader
import MarketDataGateway.Lib.Processes
import MarketDataGateway.Registry.Redis
import MarketDataGateway.Registry.Step
import MarketDataGateway.Registry.Activation
import MarketDataGateway.Registry.Resurrection
import MarketDataGateway.Registry.Agreement
import MarketDataGateway.Registry.Release
import MarketDataGateway.Hot.Keys
import MarketDataGateway.Hot.CacheQuote
import MarketDataGateway.Hot.GetCandles
import MarketDataGateway.Hot.System
import MarketDataGateway.Hot.LostUpdates
import MarketDataGateway.Hot.ClosedCandles
import MarketDataGateway.Hot.Retention
import MarketDataGateway.Pipeline.Redis
import MarketDataGateway.Pipeline.Step
import MarketDataGateway.Pipeline.Once
import MarketDataGateway.Pipeline.Loss
import MarketDataGateway.Pipeline.Latest
import MarketDataGateway.Pipeline.Sequence
import MarketDataGateway.Archive.Hybrid
import MarketDataGateway.Lib.ConsumerGroup
import MarketDataGateway.Lib.PendingGroup
import MarketDataGateway.Streams.Consumer
import MarketDataGateway.Usage.Sink
import MarketDataGateway.Archive.Worker
import MarketDataGateway.Archive.Backlog
import MarketDataGateway.Collector.Control
import MarketDataGateway.Collector.Restart
import MarketDataGateway.Collector.Handshake
import MarketDataGateway.Collector.Wedge
import MarketDataGateway.Lib.Binary64
import MarketDataGateway.Lib.Decimal
import MarketDataGateway.Lib.Unicode
import MarketDataGateway.Lib.Capitals
import MarketDataGateway.Lib.Dict
import MarketDataGateway.Lib.Json
import MarketDataGateway.Lib.JsonRoundTrip
import MarketDataGateway.Lib.Sha256
import MarketDataGateway.Lib.HashChain
import MarketDataGateway.Recorder.Ledger
import MarketDataGateway.Recorder.Append
import MarketDataGateway.Lib.JsonSpelling
import MarketDataGateway.Recorder.Canonical
import MarketDataGateway.Recorder.Quotes
import MarketDataGateway.Recorder.Gaps
import MarketDataGateway.Access.RateLimit
import MarketDataGateway.Lib.Fields
import MarketDataGateway.Models.Quote
import MarketDataGateway.Models.Wire
import MarketDataGateway.Access.Profiles
import MarketDataGateway.Access.Connections
import MarketDataGateway.Session.Hub
import MarketDataGateway.Session.Membership
import MarketDataGateway.Session.Command
import MarketDataGateway.Session.Receive
import MarketDataGateway.Session.Replies
import MarketDataGateway.Session.Atomicity
import MarketDataGateway.Session.Buffer
import MarketDataGateway.Session.ConnectionHub
import MarketDataGateway.Session.SymbolLists
import MarketDataGateway.Session.Delivery
import MarketDataGateway.Session.Silence
import MarketDataGateway.Session.SnapshotFirst
import MarketDataGateway.Chart.Renderer
import MarketDataGateway.Lib.InsertionMap
import MarketDataGateway.MarketData.Source
import MarketDataGateway.Engine.Aggregator
import MarketDataGateway.Engine.Store
import MarketDataGateway.Engine.Latest
import MarketDataGateway.Engine.Rebuild
import MarketDataGateway.Engine.AllOrNothing
import MarketDataGateway.Lib.Calendar
import MarketDataGateway.Lib.Digits
import MarketDataGateway.Lib.Rounding
import MarketDataGateway.Models.Spelling
import MarketDataGateway.MarketData.Schema
import MarketDataGateway.MarketData.Wire
import MarketDataGateway.MarketData.Spelled
import MarketDataGateway.Session.Frames
import MarketDataGateway.MarketData.Readable
import MarketDataGateway.Lib.Loops
import MarketDataGateway.Models.Sums
import MarketDataGateway.Coinbase.Values
import MarketDataGateway.Coinbase.Projector
import MarketDataGateway.Coinbase.Events
import MarketDataGateway.Coinbase.Trades
import MarketDataGateway.Coinbase.Batches
import MarketDataGateway.Coinbase.Prices
import MarketDataGateway.Lib.Joins
import MarketDataGateway.Coinbase.Identity
import MarketDataGateway.Coinbase.Tickers
import MarketDataGateway.Coinbase.Rollback
import MarketDataGateway.Coinbase.Poison
import MarketDataGateway.Engine.GuardRuns
import MarketDataGateway.Engine.SequenceReset
import MarketDataGateway.Engine.Interference
import MarketDataGateway.Engine.CandleRetention
import MarketDataGateway.MarketData.Replay
import MarketDataGateway.MarketData.ReplayRuns
import MarketDataGateway.Session.Accounting
import MarketDataGateway.Session.Pace
import MarketDataGateway.Usage.Recorder
import MarketDataGateway.Chart.Loader
import MarketDataGateway.Lib.Comments
import MarketDataGateway.Lib.Outline
import MarketDataGateway.Causal.Sections
import MarketDataGateway.Causal.Gate
import MarketDataGateway.Coinbase.Stops
import MarketDataGateway.Coinbase.Reader
import MarketDataGateway.Candles.Datetimes
import MarketDataGateway.Candles.Dated
import MarketDataGateway.Logging.Redact
import MarketDataGateway.Causal.Scaffolding
import MarketDataGateway.Lib.Shell
import MarketDataGateway.Lib.ShellText
import MarketDataGateway.Causal.Contract
import MarketDataGateway.Causal.GateScript
import MarketDataGateway.Causal.BaseRuns
import MarketDataGateway.Causal.Sanitize
import MarketDataGateway.Causal.SecretPairs
import MarketDataGateway.Causal.Credentials
import MarketDataGateway.Causal.HiddenCredentials
import MarketDataGateway.Lib.Scheduler
import MarketDataGateway.Lib.Calls
import MarketDataGateway.MarketData.WebSocketSource
import MarketDataGateway.MarketData.SourceCalls
import MarketDataGateway.MarketData.SourceMoves
import MarketDataGateway.MarketData.SourceTells
import MarketDataGateway.MarketData.SourceRuns
import MarketDataGateway.MarketData.SourceFence
import MarketDataGateway.MarketData.SourceSession
import MarketDataGateway.MarketData.SourceAttempts
import MarketDataGateway.Lib.InsertionSet
import MarketDataGateway.MarketData.SubscriptionManager
import MarketDataGateway.MarketData.SourceReports
import MarketDataGateway.MarketData.SubscriptionReferences
import MarketDataGateway.MarketData.SubscriptionHearing
import MarketDataGateway.MarketData.SubscriptionSoundness
import MarketDataGateway.MarketData.SubscriptionConvergence
