import Corsair.Double
import Corsair.BrokerApi
import Corsair.Lib.HashMap
import Corsair.Native.Decoder
import Corsair.Native.Broker
import Corsair.Lib.Machine
import Corsair.Native.Adapter
import Corsair.Native.OrderCache
import Corsair.Book.Portfolio
import Corsair.Book.Index
import Corsair.Book.Ledger
import Corsair.Book.Pnl
import Corsair.Hedge.Manager
import Corsair.Risk.Monitor
import Corsair.Risk.Sticky
import Corsair.Risk.DailyHalt
import Corsair.MarketData
import Corsair.Daemon.KillCancels
import Corsair.Book.Aggregate
import Corsair.Lib.Worst
import Corsair.Daemon.DeltaKill
import Corsair.Daemon.Machine
import Corsair.Daemon.PlaceWhileKilled
import Corsair.Daemon.KillAction
import Corsair.Daemon.FillOnce
import Corsair.Daemon.Pipeline
import Corsair.Daemon.HedgeReconcile
import Corsair.Native.OrderIds
import Corsair.Native.ContractRequests
import Corsair.Book.ProductDelta
import Corsair.Constraint.Checker
import Corsair.Constraint.Gated
import Corsair.Hedge.Target
import Corsair.Daemon.HedgeInFlight
import Corsair.Daemon.HedgeOnFill
import Corsair.Daemon.ReconcilePositions
import Corsair.Lib.Wire
import Corsair.Trader.Decision
import Corsair.Trader.Main
import Corsair.Daemon.Ipc
import Corsair.Daemon.CommandWire
import Corsair.Daemon.Surfaces
import Corsair.Daemon.FitCycle
import Corsair.Daemon.Mirror
import Corsair.Lib.Fence
import Corsair.Trader.Replace
import Corsair.Daemon.OneQuote
import Corsair.Trader.Bookkeeping
import Corsair.Daemon.Tracking
import Corsair.Lib.Framing
import Corsair.Native.Codec
import Corsair.Native.PlaceTemplate
import Corsair.Native.Session
import Corsair.Native.TemplateCache
import Corsair.Native.ErrorAddress
import Corsair.Ipc.Protocol
import Corsair.Ipc.Ring
import Corsair.Ipc.Reliable
import Corsair.Native.ExecutionRequests
import Corsair.Native.Connection
import Corsair.Native.OpenOrders
import Corsair.Book.Calls
import Corsair.Daemon.KilledWhileDown
import Corsair.Trader.Interleaved
import Corsair.Trader.Attributed
import Corsair.Rounding
import Corsair.Trader.Edge
import Corsair.Hedge.Accounting
import Corsair.Native.FastEncoding
import Corsair.Daemon.DailyRollover
import Corsair.Daemon.MarginGate
import Corsair.Native.Reconnect
import Corsair.Daemon.Locks
import Corsair.Constraint.Verdict
import Corsair.Lib.Inverse
import Corsair.Oms.Book
import Corsair.Oms.Cancelling
import Corsair.Oms.Coherence
import Corsair.Hedge.Dedupe
import Corsair.Daemon.HedgeDecided
import Corsair.Daemon.HedgeObserved
import Corsair.Trader.Throttle
import Corsair.Trader.Rejected
import Corsair.Native.BrokerCalls
import Corsair.Native.Residue
import Corsair.Daemon.AccountFigures
import Corsair.Ipc.BadFrame
import Corsair.Native.Layout
import Corsair.Daemon.Lookups
import Corsair.Daemon.TickPaths
import Corsair.Daemon.Chain
import Corsair.Digits
import Corsair.Trader.TteCache
import Corsair.Trader.QuoteDecision
import Corsair.Trader.QuoteParity
import Corsair.Native.Modify
import Corsair.Span
import Corsair.Brent
import Corsair.Black
import Corsair.Lib.Elimination
import Corsair.Calibrate.Linear
import Corsair.Calibrate.LeastSquares
import Corsair.Calibrate.Sabr
import Corsair.Sabr.Vol
import Corsair.Sabr.Surface
import Corsair.Sabr.Rejected
import Corsair.Sabr.Formulas
import Corsair.Sabr.Lookups
import Corsair.Sabr.Served
import Corsair.Greeks
import Corsair.ImpliedVol
import Corsair.Daemon.Feed
import Corsair.Lib.FileSystem
import Corsair.Lib.StandardNormal
import Corsair.Snapshots
import Corsair.Calibrate.Svi
import Corsair.Native.TickRoutes
import Corsair.Daemon.LiveMarket
import Corsair.Daemon.MarginCalibration
import Corsair.Daemon.Strikes
import Corsair.Daemon.BookFollows
import Corsair.Trader.Justified
