import HexAgent.Account.Ledger
import HexAgent.Wal.Absolute

/-!
# Persistence jobs

The owners of the account hand their changes to the writer as typed jobs. A job holds the rows that
changed, with absolute values, and the writer turns it into changes of the durable tree. Cold
transactions, prune deltas and plain changes enter here with the changes that they turn into.

Within a batch the writer keeps only the last job of every row and kind. Jobs of the other kinds are
barriers, across which nothing is dropped.

The JSON form of the rows is a parameter.
-/

namespace HexAgent.Wal

open HexAgent.Account

structure ReservationPersistenceDelta where
  instanceId : String
  clientOrderId : String
  order : OrderOwnership
  reservedCash : ℚ
  reservedPosition : ℚ

structure VirtualLifecyclePersistenceDelta where
  instanceId : String
  reservedCash : ℚ
  clientOrderId : String
  order : Option OrderOwnership
  reservedPosition : Option (String × ℚ)
  recoveryPending : Bool
  startupQueryRepair : Bool
  routineCancelAudit : Bool

structure VirtualTradePersistenceDelta where
  instanceId : String
  cash : ℚ
  reservedCash : ℚ
  tokenId : String
  position : ℚ
  reservedPosition : ℚ
  clientOrderId : String
  order : Option OrderOwnership
  tradeKey : String
  trade : Option AppliedTrade
  feeAttributionPending : Bool
  recoveryPending : Bool
  routineCancelAudit : Bool
  ledgerGeneration : ℕ

inductive PersistenceJobPayload
  | coldTransaction (materialized : Except String (List PersistenceWalChange))
  | changes (changes : List PersistenceWalChange)
  | settledPrune (materialized : Except String (List PersistenceWalChange))
  | reservation (delta : ReservationPersistenceDelta)
  | virtualLifecycle (delta : VirtualLifecyclePersistenceDelta)
  | virtualTrade (delta : VirtualTradePersistenceDelta)
  | unresolvedTradeMatchTime (tradeKey : String) (matchTimeSecs : Option ℕ)

structure PersistenceJob where
  generation : ℕ
  payload : PersistenceJobPayload

/-- JSON form of the rows. -/
structure RowFormat where
  order : OrderOwnership → Json
  trade : AppliedTrade → Json

/-! ## Materialization -/

/-- JSON form of an amount. -/
def amountValue (x : ℚ) : Json := .num (.float x)

/-- JSON form of a counter. -/
def counterValue (n : ℕ) : Json := .num (.int n)

def persistenceWalMapEntry (map key : String) : Option Json → PersistenceWalChange
  | some value => .set [map, key] value
  | none => .remove [map, key]

def persistenceWalSetMembership (set member : String) (present : Bool) : PersistenceWalChange :=
  if present then .setInsert [set] (.str member) else .setRemove [set] (.str member)

section Materialize

variable (rows : RowFormat)

/-- Changes of a reservation. -/
def ReservationPersistenceDelta.materialize (delta : ReservationPersistenceDelta) :
    List PersistenceWalChange :=
  [.set ["instances", delta.instanceId, "reserved_cash"] (amountValue delta.reservedCash),
    persistenceWalMapEntry "orders" delta.clientOrderId (some (rows.order delta.order)),
    .set ["instances", delta.instanceId, "reserved_positions", delta.order.tokenId]
      (amountValue delta.reservedPosition),
    persistenceWalMapEntry "oid_to_coid" (normalizeOrderId delta.order.orderId)
      (some (.str delta.clientOrderId)),
    persistenceWalSetMembership "recovery_pending_orders" delta.clientOrderId false,
    persistenceWalSetMembership "startup_query_repair_orders" delta.clientOrderId false,
    persistenceWalSetMembership "routine_cancel_audits" delta.clientOrderId false]

/-- Changes of an order lifecycle delta. -/
def VirtualLifecyclePersistenceDelta.materialize (delta : VirtualLifecyclePersistenceDelta) :
    List PersistenceWalChange :=
  [.set ["instances", delta.instanceId, "reserved_cash"] (amountValue delta.reservedCash),
    persistenceWalMapEntry "orders" delta.clientOrderId (delta.order.map rows.order)] ++
  (match delta.reservedPosition with
    | none => []
    | some (tokenId, reservedPosition) =>
      [.set ["instances", delta.instanceId, "reserved_positions", tokenId]
          (amountValue reservedPosition),
        persistenceWalMapEntry "oid_to_coid"
          ((delta.order.map fun order => normalizeOrderId order.orderId).getD "")
          (delta.order.map fun order => .str order.clientOrderId)]) ++
  [persistenceWalSetMembership "recovery_pending_orders" delta.clientOrderId delta.recoveryPending,
    persistenceWalSetMembership "startup_query_repair_orders" delta.clientOrderId
      delta.startupQueryRepair,
    persistenceWalSetMembership "routine_cancel_audits" delta.clientOrderId
      delta.routineCancelAudit]

/-- Changes of a trade delta. -/
def VirtualTradePersistenceDelta.materialize (delta : VirtualTradePersistenceDelta) :
    List PersistenceWalChange :=
  [.set ["instances", delta.instanceId, "cash"] (amountValue delta.cash),
    .set ["instances", delta.instanceId, "reserved_cash"] (amountValue delta.reservedCash),
    .set ["instances", delta.instanceId, "positions", delta.tokenId] (amountValue delta.position),
    .set ["instances", delta.instanceId, "reserved_positions", delta.tokenId]
      (amountValue delta.reservedPosition),
    persistenceWalMapEntry "orders" delta.clientOrderId (delta.order.map rows.order),
    persistenceWalMapEntry "trades" delta.tradeKey (delta.trade.map rows.trade),
    persistenceWalSetMembership "fee_attribution_pending" delta.tradeKey
      delta.feeAttributionPending,
    persistenceWalSetMembership "recovery_pending_orders" delta.clientOrderId delta.recoveryPending,
    persistenceWalSetMembership "routine_cancel_audits" delta.clientOrderId
      delta.routineCancelAudit,
    .set ["ledger_generation"] (counterValue delta.ledgerGeneration)]

def materializePersistenceJob (job : PersistenceJob) : Except String (List PersistenceWalChange) :=
  match job.payload with
  | .coldTransaction materialized => materialized
  | .changes changes => .ok changes
  | .settledPrune materialized => materialized
  | .reservation delta => .ok (delta.materialize rows)
  | .virtualLifecycle delta => .ok (delta.materialize rows)
  | .virtualTrade delta => .ok (delta.materialize rows)
  | .unresolvedTradeMatchTime tradeKey matchTimeSecs =>
    .ok [persistenceWalMapEntry "unresolved_trade_match_times" tradeKey
      (matchTimeSecs.map counterValue)]

/-- The changes of all jobs, one after the other. -/
def materializePersistenceJobs (jobs : List PersistenceJob) :
    Except String (List PersistenceWalChange) :=
  List.flatten <$> jobs.mapM (materializePersistenceJob rows)

/-- Materialize the jobs of a batch and apply their changes. -/
def applyJobs (state : Json) (jobs : List PersistenceJob) : Except String Json := do
  let changes ← materializePersistenceJobs rows jobs
  changes.foldlM applyPersistenceWalChange state

end Materialize

/-! ## Coalescing -/

/-- Kinds of jobs of which a batch keeps the last one per row. -/
inductive RowKind
  | reservation
  | lifecycle
  | trade
  | unresolved
  deriving DecidableEq

/-- Kind and row of a job; barriers have none. -/
def PersistenceJob.rowKey (job : PersistenceJob) : Option (RowKind × String) :=
  match job.payload with
  | .reservation delta => some (.reservation, delta.clientOrderId)
  | .virtualLifecycle delta => some (.lifecycle, delta.clientOrderId)
  | .virtualTrade delta => some (.trade, delta.tradeKey)
  | .unresolvedTradeMatchTime tradeKey _ => some (.unresolved, tradeKey)
  | .settledPrune _ => none
  | .coldTransaction _ => none
  | .changes _ => none

/-- One step of the loop, which goes over the jobs from the last to the first. The four sets of the
loop are one set here, whose keys are tagged with their kind. -/
def coalesceStep (job : PersistenceJob) (seen : Finset (RowKind × String) × List PersistenceJob) :
    Finset (RowKind × String) × List PersistenceJob :=
  match job.rowKey with
  | none => (∅, job :: seen.2)
  | some key => if key ∈ seen.1 then seen else (insert key seen.1, job :: seen.2)

def coalescePersistenceJobs (jobs : List PersistenceJob) : List PersistenceJob :=
  (jobs.foldr coalesceStep (∅, [])).2

end HexAgent.Wal
