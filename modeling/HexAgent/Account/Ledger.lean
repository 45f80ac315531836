import HexAgent.Types
import HexAgent.ToMathlib.AListSum
import Mathlib.Data.Rat.Floor
import Mathlib.Data.Finset.Insert
import Mathlib.Data.Finset.Erase

/-!
# The virtual account of one strategy instance

`VirtualAccount` is the runtime shard of the shared account that one strategy instance owns: its
cash and token balances, the counters of cash and tokens reserved by open orders, and the order
and trade rows behind them. Every operation of the account lifecycle owner changes rows and
counters together; this module has the data and the steps that several operations share.

The source computes in binary floating point and compares with small tolerances. Here amounts are
exact rationals and the tolerances are a parameter, `Tolerance`, with the source's constants
(`Tolerance.source`) and the all-zero reading (`Tolerance.exact`). The additions on the two kinds
of counters are parameters of `Numerics` too, so that a theorem can say that replacing the source's
clamped addition changes nothing.
-/

namespace HexAgent.Account

/-! ## Arithmetic -/

/-- The tolerances of the source's comparisons. -/
structure Tolerance where
  -- `EPS`
  eps : ℚ
  -- the literal `1e-8` of quantity and price comparisons
  relative : ℚ
  -- `QUOTE_CURRENCY_ATOMIC_UNIT`
  atomicUnit : ℚ
  -- `f64::EPSILON`
  float : ℚ
  -- `RECONCILIATION_UNIT` and the literal `1e-12` beside it
  reconciliationUnit : ℚ
  reconciliationRelative : ℚ

/-- The constants of the source. -/
def Tolerance.source : Tolerance where
  eps := 1 / 10 ^ 9
  relative := 1 / 10 ^ 8
  atomicUnit := 1 / 10 ^ 6
  float := 1 / 2 ^ 52
  reconciliationUnit := 1 / 10 ^ 6
  reconciliationRelative := 1 / 10 ^ 12

/-- Exact comparisons. -/
def Tolerance.exact : Tolerance :=
  ⟨0, 0, 0, 0, 0, 0⟩

/-- The arithmetic that the ledger is run with. -/
structure Numerics where
  tol : Tolerance
  -- `f64::powf`, used by the fee curve only
  powf : ℚ → ℚ → ℚ
  -- addition on reservation counters
  addReserved : ℚ → ℚ → ℚ
  -- addition on cash and token balances
  addBalance : ℚ → ℚ → ℚ

/-- `AtomicF64::add`: the sum, clamped at zero. -/
def AtomicF64.add (current delta : ℚ) : ℚ :=
  max (current + delta) 0

variable (tol : Tolerance)

def AtomicF64.ensureAtLeast (current minimum : ℚ) : ℚ :=
  if minimum ≤ current + tol.eps then current else minimum

/-- `AtomicF64::try_reserve`: the increased counter, or what was available below the limit. -/
def AtomicF64.tryReserve (current limit amount : ℚ) : Except ℚ ℚ :=
  let available := max (limit - current) 0
  if available + tol.eps < amount then .error available else .ok (current + amount)

/-- The source's arithmetic, with the given tolerances and power function. -/
def Numerics.clamped (powf : ℚ → ℚ → ℚ) : Numerics where
  tol := tol
  powf := powf
  addReserved := AtomicF64.add
  addBalance := AtomicF64.add

/-- `reconciliation_tolerance`. -/
def Tolerance.reconciliation (lhs rhs : ℚ) : ℚ :=
  tol.reconciliationUnit + max |lhs| |rhs| * tol.reconciliationRelative

/-! ## Trade rows -/

/-- Trade lifecycle status. `other` stands for every text that an old ledger may hold. -/
inductive TradeStatus
  | other
  | matched
  | mined
  | failed
  | confirmed
  deriving DecidableEq

/-- Order in which statuses supersede each other. -/
def TradeStatus.rank : TradeStatus → ℕ
  | .other => 0
  | .matched => 1
  | .mined => 2
  | .failed => 3
  | .confirmed => 4

/-- Identity and economics of one trade leg. -/
structure TradeOwnership where
  orderSlot : ℕ
  accountId : String
  instanceId : String
  tradeKey : String
  clientOrderId : String
  orderId : String
  tokenId : String
  side : Side
  quantity : ℚ
  price : ℚ
  status : TradeStatus
  deriving DecidableEq

/-- Execution data frozen at first booking. -/
structure TradeExecutionPricing where
  rawPrice : ℚ
  grossNotional : ℚ
  deriving DecidableEq

/-- Durable row of one trade leg. -/
structure AppliedTrade where
  executionPricing : Option TradeExecutionPricing
  feeSettlement : Option FeeSettlement
  feeConfig : Option FeeBasis
  ownership : TradeOwnership
  -- whether the principal is in the virtual balances
  booked : Bool
  -- whether settlement finality was observed
  physicalBooked : Bool
  usdcFee : ℚ
  sharesFee : ℚ
  virtualFeeBooked : Bool
  physicalFeeBooked : Bool
  failed : Bool
  failureReconciled : Bool
  isMaker : Option Bool
  matchTimeSecs : ℕ
  ledgerGeneration : ℕ
  deriving DecidableEq

/-! ## The shard -/

/-- Balance and reservation of one token. -/
structure VirtualPositionQuota where
  balance : ℚ
  reserved : ℚ
  deriving DecidableEq

/-- Keys that one private mutation touched, for the merge of a concurrent cold transaction. -/
structure VirtualTradeMutationHint where
  epoch : ℕ
  tradeKey : String
  clientOrderId : String
  tokenId : String
  deriving DecidableEq

/-- Runtime account shard of one instance; the fields of the source's `VirtualLifecycle` are
inlined. -/
structure VirtualAccount where
  instanceId : String
  cash : ℚ
  reservedCash : ℚ
  positions : AList fun _ : String => VirtualPositionQuota
  orders : AList fun _ : String => OrderOwnership
  trades : AList fun _ : String => AppliedTrade
  recoveryPendingOrders : Finset String
  startupQueryRepairOrders : Finset String
  routineCancelAudits : Finset String
  feeAttributionPending : Finset String
  cancelAuditAnomalies : Finset String
  recentTradeMutations : List VirtualTradeMutationHint
  reservationEpoch : ℕ
  tradeEpoch : ℕ

def recentVirtualTradeMutations : ℕ := 65536

/-- Drop the oldest hints beyond the window. -/
def trimHints : List VirtualTradeMutationHint → List VirtualTradeMutationHint
  | [] => []
  | hint :: hints =>
    if recentVirtualTradeMutations < (hint :: hints).length then trimHints hints else hint :: hints

namespace VirtualAccount

section

variable (a : VirtualAccount)

/-- Quota of a token; a token that was never seen has none of it. -/
def position (token : String) : VirtualPositionQuota :=
  (a.positions.lookup token).getD ⟨0, 0⟩

/-- Replace the quota of a token. -/
def setPosition (token : String) (quota : VirtualPositionQuota) : VirtualAccount :=
  { a with positions := a.positions.insert token quota }

lemma position_setPosition (token other : String)
    (quota : VirtualPositionQuota) :
    (a.setPosition token quota).position other =
      if other = token then quota else a.position other := by
  unfold position setPosition
  split
  · next h => rw [h, AList.lookup_insert, Option.getD_some]
  · next h => rw [AList.lookup_insert_ne h]

variable (coid : String)

/-- Replace an order row. -/
def setOrder (order : OrderOwnership) : VirtualAccount :=
  { a with orders := a.orders.insert coid order }

/-- Replace a trade row. -/
def setTrade (key : String) (trade : AppliedTrade) : VirtualAccount :=
  { a with trades := a.trades.insert key trade }

/-- Put an order into recovery, or take it out. -/
def setRecovery (pending : Bool) : VirtualAccount :=
  { a with recoveryPendingOrders :=
      if pending then insert coid a.recoveryPendingOrders else a.recoveryPendingOrders.erase coid }

/-- Take an order out of the startup query repair. -/
def clearStartupRepair : VirtualAccount :=
  { a with startupQueryRepairOrders := a.startupQueryRepairOrders.erase coid }

/-- Put an order into the routine cancel audit, or take it out. -/
def setRoutineAudit (pending : Bool) : VirtualAccount :=
  { a with routineCancelAudits :=
      if pending then insert coid a.routineCancelAudits else a.routineCancelAudits.erase coid }

/-- Raise or clear the cancel audit anomaly of an order. -/
def setCancelAuditAnomaly (present : Bool) : VirtualAccount :=
  { a with cancelAuditAnomalies :=
      if present then insert coid a.cancelAuditAnomalies else a.cancelAuditAnomalies.erase coid }

/-- Put a trade into the fee attribution backlog, or take it out. -/
def setFeePending (key : String) (pending : Bool) : VirtualAccount :=
  { a with feeAttributionPending :=
      if pending then insert key a.feeAttributionPending else a.feeAttributionPending.erase key }

/-- Mark that an order was admitted. -/
def bumpReservationEpoch : VirtualAccount :=
  { a with reservationEpoch := a.reservationEpoch + 1 }

end

section

variable (N : Numerics) (a : VirtualAccount)

/-- Add to the cash balance. -/
def addCash (delta : ℚ) : VirtualAccount :=
  { a with cash := N.addBalance a.cash delta }

/-- Add to the balance of a token. -/
def addPosition (token : String) (delta : ℚ) : VirtualAccount :=
  let quota := a.position token
  a.setPosition token { quota with balance := N.addBalance quota.balance delta }

/-- Add to the reserved cash, skipping changes within the tolerance. -/
def adjustReservedCash (delta : ℚ) : VirtualAccount :=
  if N.tol.eps < |delta| then { a with reservedCash := N.addReserved a.reservedCash delta } else a

/-- Add to the reserved quantity of a token, skipping changes within the tolerance. -/
def adjustReservedPosition (token : String) (delta : ℚ) : VirtualAccount :=
  if N.tol.eps < |delta| then
    let quota := a.position token
    a.setPosition token { quota with reserved := N.addReserved quota.reserved delta }
  else a

def adjustReservation (token : String) (cashDelta positionDelta : ℚ) : VirtualAccount :=
  (a.adjustReservedCash N cashDelta).adjustReservedPosition N token positionDelta

end

/-- `record_virtual_trade_mutation`: advance the epoch and keep the most recent hints. -/
def recordVirtualTradeMutation (a : VirtualAccount) (tradeKey clientOrderId tokenId : String) :
    VirtualAccount :=
  { a with
    tradeEpoch := a.tradeEpoch + 1
    recentTradeMutations := trimHints
      (a.recentTradeMutations ++ [⟨a.tradeEpoch + 1, tradeKey, clientOrderId, tokenId⟩]) }

end VirtualAccount

/-! ## Reservations of one order -/

/-- Reservation that an order needs for what may still fill: cash for a buy, tokens for a sell. -/
def desiredOrderReservation (order : OrderOwnership) : ℚ × ℚ :=
  if order.inferredCancel then (0, 0)
  else
    let target := min (order.terminalMatchedQuantity.getD order.quantity) order.quantity
    let remaining := max (target - order.filledQuantity) 0
    match order.side with
    | .buy => (remaining * order.reservationCashPerShare, 0)
    | .sell => (0, remaining)

namespace VirtualAccount

/-- Write an order row whose reservation may have changed, and move both counters by the
difference to the reservation it replaces. -/
def rewriteOrder (N : Numerics) (a : VirtualAccount) (coid : String)
    (old new : OrderOwnership) : VirtualAccount :=
  (a.setOrder coid new).adjustReservation N new.tokenId (new.reservedCash - old.reservedCash)
    (new.reservedQuantity - old.reservedQuantity)

def releaseVirtualOrderReservation (N : Numerics) (a : VirtualAccount) (coid : String) :
    VirtualAccount :=
  match a.orders.lookup coid with
  | none => a
  | some order => a.rewriteOrder N coid order (order.withReservation (0, 0))

/-- Trade rows of one order; the source keeps an index and the order of its rows is unspecified. -/
def rowsForOrder (a : VirtualAccount) (coid : String) : List AppliedTrade :=
  (a.trades.entries.map Sigma.snd).filter fun trade => trade.ownership.clientOrderId == coid

end VirtualAccount

/-- A leg key names a base trade id if it is that id or the id followed by a colon. -/
def terminalTradeIdMatches (tradeKey baseTradeId : String) : Bool :=
  tradeKey == baseTradeId ||
    ((tradeKey.toList.dropPrefix? baseTradeId.toList).any fun suffix => suffix.head? == some ':')

/-- `terminal_order_audit_complete_virtual`: every trade that the terminal audit names is booked
or failed, and their quantities add up to the audited one. -/
def VirtualAccount.terminalOrderAuditCompleteVirtual (N : Numerics) (a : VirtualAccount)
    (coid : String) : Bool :=
  match a.orders.lookup coid with
  | none => false
  | some order =>
    match order.terminalMatchedQuantity with
    | none => false
    | some target =>
      if !order.terminalTradeIdsAuthoritative then false
      else if order.terminalTradeIds.isEmpty then decide (target ≤ N.tol.eps)
      else
        let covered := order.terminalTradeIds.foldlM (fun covered expectedId =>
          ((a.rowsForOrder coid).find? fun trade =>
            terminalTradeIdMatches trade.ownership.tradeKey expectedId &&
              (trade.booked || trade.failed)).map
            fun trade => covered + trade.ownership.quantity) (0 : ℚ)
        match covered with
        | none => false
        | some covered => decide (|covered - target| ≤ max |target| 1 * N.tol.relative)

end HexAgent.Account
