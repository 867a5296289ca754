import Osmium.Lib.Machine
import Osmium.Lib.Result
import Osmium.Lib.Bytes
import Osmium.Lib.Codec
import Osmium.Lib.Stateful
import Osmium.Lib.Hoare
import Osmium.Lib.OrderedMap
import Osmium.Lib.SortedQueue
import Osmium.Lib.Merge
import Osmium.Lib.Calendar
import Osmium.Lib.Intervals
import Osmium.Lib.Rounding
import Osmium.Lib.Allotment
import Osmium.Lib.Hex
import Osmium.Lib.Json
import Osmium.Lib.Keyed
import Osmium.Lib.Numeral
import Osmium.Lib.Grouping
import Osmium.Lib.Files
import Osmium.Lib.Blocks
import Osmium.Lib.Directories
import Osmium.Spec.Values
import Osmium.Spec.Book
import Osmium.Spec.Event
import Osmium.Spec.Canonical
import Osmium.Spec.Orders
import Osmium.Spec.Accounting
import Osmium.Spec.MultiLedger
import Osmium.Spec.Depth
import Osmium.Spec.Scheduled
import Osmium.Spec.MarketState
import Osmium.Spec.Reducer
import Osmium.Spec.Replay
import Osmium.Spec.Streams
import Osmium.Spec.Trading
import Osmium.Spec.Strategy
import Osmium.Spec.Control
import Osmium.Spec.Coordinator
import Osmium.Spec.Runner
import Osmium.Spec.Simulator
import Osmium.Spec.MultiRunner
import Osmium.Spec.Timestamp
import Osmium.Spec.Decimal
import Osmium.Spec.Sessions
import Osmium.Spec.Query
import Osmium.Spec.Cursor
import Osmium.Spec.Storage
import Osmium.Spec.Verify
import Osmium.Spec.Quote
import Osmium.Spec.Partition
import Osmium.Spec.Cache
import Osmium.Spec.Artifacts
import Osmium.Spec.CacheReader
import Osmium.Spec.StrategyRun
import Osmium.Spec.RunConfig
import Osmium.Spec.ExecutionPlan
import Osmium.Sanity.Codec
import Osmium.Sanity.Accounting
import Osmium.Sanity.Charges
import Osmium.Sanity.DayTrade
import Osmium.Sanity.Precision
import Osmium.Sanity.Depth
import Osmium.Sanity.Recording
import Osmium.Sanity.Lifecycle
import Osmium.Sanity.Matching
import Osmium.Sanity.Calls
import Osmium.Sanity.Passive
import Osmium.Sanity.OrderTable
import Osmium.Sanity.Replay
import Osmium.Sanity.Reducer
import Osmium.Sanity.Frame
import Osmium.Sanity.Streams
import Osmium.Sanity.Simulator
import Osmium.Sanity.SimulatorCalls
import Osmium.Sanity.Evaluation
import Osmium.Sanity.MultiRunner
import Osmium.Sanity.Sessions
import Osmium.Sanity.Decimal
import Osmium.Sanity.Timestamp
import Osmium.Sanity.Cursor
import Osmium.Sanity.Verify
import Osmium.Sanity.Storage
import Osmium.Sanity.Staging
import Osmium.Sanity.Quote
import Osmium.Sanity.Coordinator
import Osmium.Sanity.Cache
import Osmium.Sanity.Requests
import Osmium.Sanity.Artifacts
import Osmium.Sanity.Completion
import Osmium.Sanity.Control
import Osmium.Sanity.Runner
import Osmium.Sanity.Visibility
import Osmium.Sanity.StrategyRun
import Osmium.Sanity.RunConfig
import Osmium.Proofs.EventCodec
import Osmium.Proofs.Accounting
import Osmium.Proofs.Charges
import Osmium.Proofs.Basis
import Osmium.Proofs.DayTrade
import Osmium.Proofs.Scheduled
import Osmium.Proofs.Depth
import Osmium.Proofs.Replay
import Osmium.Proofs.Simulator
import Osmium.Proofs.Evaluation
import Osmium.Proofs.MultiRunner
import Osmium.Proofs.StateCanonical
import Osmium.Proofs.Reducer
import Osmium.Proofs.Frame
import Osmium.Proofs.Auction
import Osmium.Proofs.Phases
import Osmium.Proofs.Interruption
import Osmium.Proofs.Decimal
import Osmium.Proofs.Timestamp
import Osmium.Proofs.Visibility
import Osmium.Proofs.Sessions
import Osmium.Proofs.Cursor
import Osmium.Proofs.Storage
import Osmium.Proofs.Quote
import Osmium.Proofs.Output
import Osmium.Proofs.Control
import Osmium.Proofs.Partition
import Osmium.Proofs.Cache
import Osmium.Proofs.Artifacts
import Osmium.Proofs.ControlOrder
import Osmium.Proofs.MarketReplay
import Osmium.Proofs.CacheReader
import Osmium.Proofs.CachedReplay
import Osmium.Proofs.StrategyRun
import Osmium.Proofs.RunConfig
import Osmium.Proofs.ExecutionPlan
