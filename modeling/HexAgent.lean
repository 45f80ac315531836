import HexAgent.Account.Fallback
import HexAgent.Account.PublishedRun
import HexAgent.Account.StartupRun
import HexAgent.Admission.Consumer
import HexAgent.Admission.Probation
import HexAgent.Admission.Trust
import HexAgent.CancelOutbox.Coalescing
import HexAgent.Clob.LaneOrder
import HexAgent.Engine.TimingHistogram
import HexAgent.Exchange.DeliveryOrder
import HexAgent.Exchange.DeliveryOutbox
import HexAgent.Exchange.IdentityMaps
import HexAgent.Exchange.OwnershipIndex
import HexAgent.History.Reliability
import HexAgent.Http1Pool.Ownership
import HexAgent.LocalBooks.Recovery
import HexAgent.Maintenance.Journal
import HexAgent.Maintenance.SplitRecovery
import HexAgent.Orders.Intents
import HexAgent.Position.Snapshot
import HexAgent.Redeem.Repeat
import HexAgent.Runtime.LatestSnapshot
import HexAgent.Runtime.ReplySlots
import HexAgent.SettledGc.Epochs
import HexAgent.Simulator.CancelTiming
import HexAgent.Simulator.Continuity
import HexAgent.Simulator.LiquidityLedger
import HexAgent.Wal.Coalesce
import HexAgent.Wal.Diff
import HexAgent.Wallet.Uncertain
