import HexAgent.Account.Fees
import Mathlib.Data.List.Sort

/-!
# Order lifecycle of the virtual account

The operations of the account lifecycle owner on orders: admission, registration, backfill and
rebinding of ids, status marks, the pending audits, authoritative audits, inferred and confirmed
cancellations, and release. Each of them acts on the shard of one instance and on the account-wide
tables that all instances share, `Registry`.

An operation whose client order id is routed to another instance, or to none, does not touch this
shard. What other instances and the control plane do to the shared tables between two operations
is arbitrary.
-/

namespace HexAgent.Account

/-- Account-wide tables that the operations of an instance read. -/
structure Registry where
  accountId : String
  seeded : Bool
  admission : Bool
  passiveAdmission : Bool
  -- owner instance of every client order id, normalised order hash and trade key
  coidRoutes : AList fun _ : String => String
  oidRoutes : AList fun _ : String => String
  tradeRoutes : AList fun _ : String => String
  -- retired trade routes and unverified archive hints
  retiredTrades : Finset String
  anomalousTrades : Finset String
  tokenFeeConfigs : AList fun _ : String => FeeBasis
  settledTokens : Finset String
  persistenceFailed : Bool
  ledgerGeneration : ℕ

/-- The admission gate that a fee policy looks at. -/
def Registry.admits (registry : Registry) (allowFeeDegraded : Bool) : Bool :=
  if allowFeeDegraded then registry.passiveAdmission else registry.admission

/-- The shard of one instance beside the shared tables. -/
structure AccountState where
  registry : Registry
  account : VirtualAccount

/-- Why an order is not admitted. -/
inductive ReservationError
  | accountNotSeeded
  | accountUncertain
  | accountInstanceBlocked (instanceId : String) (clientOrderIds : List String)
  | persistenceUnavailable (reason : String)
  | unknownInstance (instanceId : String)
  | duplicateClientOrderId (clientOrderId : String)
  | invalidOrder (reason : String)
  | insufficientVirtualCash (required available : ℚ)
  | insufficientPhysicalCash (required available : ℚ)
  | insufficientVirtualPosition (token : String) (required available : ℚ)
  | insufficientPhysicalPosition (token : String) (required available : ℚ)
  deriving DecidableEq

/-- Edge result of a terminal order notification. -/
inductive FillAuditPendingTransition
  | notTracked
  | resolved
  | newlyPending
  | alreadyPending
  deriving DecidableEq

/-- Arguments that name and price an order. -/
structure OrderRequest where
  instanceId : String
  clientOrderId : String
  orderId : String
  tokenId : String
  side : Side
  quantity : ℚ
  price : ℚ
  feeRateBps : ℕ
  deriving DecidableEq

variable (r : OrderRequest)

/-- Cash that a request reserves. -/
def OrderRequest.reserveCash : ℚ :=
  if r.side = .buy then r.quantity * r.price * (1 + r.feeRateBps / 10000) else 0

/-- Tokens that a request reserves. -/
def OrderRequest.reserveQuantity : ℚ :=
  if r.side = .sell then r.quantity else 0

/-- The row that a request creates. -/
def OrderRequest.ownership (accountId : String) (orderSlot : ℕ) : OrderOwnership where
  orderSlot := orderSlot
  accountId := accountId
  instanceId := r.instanceId
  clientOrderId := r.clientOrderId
  orderId := r.orderId
  tokenId := r.tokenId
  side := r.side
  quantity := r.quantity
  price := r.price
  feeRateBps := r.feeRateBps
  cashFeePerShare := some (if r.side = .buy then r.price * r.feeRateBps / 10000 else 0)
  reservedCash := r.reserveCash
  reservedQuantity := r.reserveQuantity

/-- `OrderSlot::UNASSIGNED`. -/
def orderSlotUnassigned : ℕ := 0xFFFFFFFF

def prepareOrderOwnershipInSlot (registry : Registry) (r : OrderRequest) (orderSlot : ℕ) :
    Except ReservationError OrderOwnership :=
  if r.instanceId = "" ∨ r.clientOrderId = "" ∨ r.orderId = "" ∨ r.tokenId = "" ∨
      r.quantity ≤ 0 ∨ r.price ≤ 0 then
    .error (.invalidOrder
      "instance/coid/oid/token must be present and quantity/price must be positive")
  else .ok (r.ownership registry.accountId orderSlot)

/-! ## Rules for one row -/

/-- Whether a stored row has the immutable identity of a prepared one. -/
def sameIdentity (existing o : OrderOwnership) : Bool :=
  decide (existing.accountId = o.accountId ∧ existing.instanceId = o.instanceId ∧
    normalizeOrderId existing.orderId = normalizeOrderId o.orderId ∧
    existing.tokenId = o.tokenId ∧ existing.side = o.side ∧ existing.orderSlot = o.orderSlot ∧
    existing.quantity = o.quantity ∧ existing.price = o.price ∧
    existing.feeRateBps = o.feeRateBps ∧ existing.cashFeePerShare = o.cashFeePerShare)

/-- Status changes that `mark_order_status_effective_with_policy` ignores. -/
def markIsStale (current status : OrderStatus) (allowTerminalResurrection : Bool) : Bool :=
  (!allowTerminalResurrection && status == .accepted &&
      (current matches .cancelled | .rejected | .filled | .failed | .partiallyFilled)) ||
    ((current matches .failed | .filled) && status != current) ||
    (current == .partiallyFilled && status == .accepted) ||
    (current == .cancelled && (status matches .accepted | .partiallyFilled)) ||
    ((current matches .cancelled | .rejected) &&
      (status matches .pending | .executorRejected | .newOrderTimeout | .cancelOrderTimeout |
        .cancelUncertain))

/-- `AuthoritativeOrderAudit`; the sizes are texts in the source, absent, unparsable or numbers. -/
structure AuthoritativeOrderAudit where
  originalSize : Option (Option ℚ)
  sizeMatched : Option (Option ℚ)
  associateTrades : List String
  deriving DecidableEq

/-- Why an authoritative audit is refused. -/
inductive AuditError
  | requiresTerminalStatus (status : OrderStatus)
  | omittedOriginalSize
  | invalidOriginalSize
  | omittedSizeMatched
  | invalidSizeMatched
  | emptyTradeId
  | duplicateTradeIds
  | candidateChanged (coid : String)
  | disagrees (coid : String) (original matched ownedQuantity filled : ℚ)
  deriving DecidableEq

/-- The sizes and the sorted trade ids of a well-formed audit. -/
def AuthoritativeOrderAudit.parse (audit : AuthoritativeOrderAudit) :
    Except AuditError (ℚ × ℚ × List String) :=
  match audit.originalSize, audit.sizeMatched with
  | none, _ => .error .omittedOriginalSize
  | some none, _ => .error .invalidOriginalSize
  | some (some _), none => .error .omittedSizeMatched
  | some (some _), some none => .error .invalidSizeMatched
  | some (some original), some (some matched) =>
    if audit.associateTrades.any fun id => (trim id.toList).isEmpty then .error .emptyTradeId
    else
      let ids := audit.associateTrades.insertionSort (· ≤ ·)
      if (ids.zip ids.tail).any fun p => p.1 == p.2 then .error .duplicateTradeIds
      else .ok (original, matched, ids)

/-- The candidate of a zero-fill recovery is still unmatched and unchanged. -/
def unmatchedCandidateChanged (existing expected : OrderOwnership) : Bool :=
  decide (existing.accountId ≠ expected.accountId ∨ existing.instanceId ≠ expected.instanceId ∨
    existing.orderId ≠ expected.orderId ∨ existing.tokenId ≠ expected.tokenId ∨
    existing.side ≠ expected.side ∨ existing.orderSlot ≠ expected.orderSlot ∨
    existing.quantity ≠ expected.quantity) ||
    (existing.status matches .filled | .failed | .rejected | .executorRejected) ||
    decide (existing.filledQuantity ≠ 0) ||
    (existing.terminalMatchedQuantity.any fun quantity => decide (quantity ≠ 0)) ||
    !existing.terminalTradeIds.isEmpty

/-- Statuses that an authoritative audit can establish. -/
def auditStatusTerminal (status : OrderStatus) : Bool :=
  status matches .filled | .cancelled

/-- The audited sizes contradict the stored row. -/
def auditDisagrees (tol : Tolerance) (order : OrderOwnership) (original matched : ℚ)
    (tradeIds : List String) : Bool :=
  let tolerance := max |order.quantity| 1 * tol.relative
  decide (tolerance < |original - order.quantity| ∨ matched < -tolerance ∨
    order.quantity + tolerance < matched ∨ matched + tolerance < order.filledQuantity ∨
    (tolerance < matched ∧ tradeIds = []))

variable (order : OrderOwnership)

/-- The row that an accepted audit writes. -/
def auditedOrder (status : OrderStatus) (matched : ℚ) (tradeIds : List String) : OrderOwnership :=
  let order := { order with
    status := status
    inferredCancel := false
    terminalMatchedQuantity := some (max (min matched order.quantity) 0)
    terminalTradeIds := tradeIds
    terminalTradeIdsAuthoritative := true }
  order.withReservation (desiredOrderReservation order)

/-- The row that a release writes. -/
def releasedOrder (status : OrderStatus) : OrderOwnership :=
  { order with status := status, reservedCash := 0, reservedQuantity := 0 }

/-- The row that an inferred cancellation writes. -/
def nullCancelledOrder : OrderOwnership :=
  { order with
    inferredCancel := true
    reservedCash := 0
    reservedQuantity := 0
    status := .cancelled }

/-- The row of a cancellation whose matched size is known but not its trades. -/
def sizeAuditedOrder (sizeMatched : ℚ) : OrderOwnership :=
  let order := { order with
    status := .cancelled
    terminalMatchedQuantity := some (max (min sizeMatched order.quantity) 0)
    terminalTradeIds := []
    terminalTradeIdsAuthoritative := false }
  order.withReservation (desiredOrderReservation order)

/-- The matched size of a cancellation contradicts the row. -/
def sizeAuditRefused (tol : Tolerance) (order : OrderOwnership) (sizeMatched : ℚ) : Bool :=
  let tolerance := max tol.relative (|order.quantity| * tol.relative)
  decide (sizeMatched < -tolerance ∨ order.quantity + tolerance < sizeMatched ∨
    sizeMatched + tolerance < order.filledQuantity)

/-- Why a recovery command is refused. -/
inductive RecoveryError
  | ownerMissing
  | identityChanged
  deriving DecidableEq

/-- Statuses that a recovery command leaves alone. -/
def recoveryStatusFinal (status : OrderStatus) : Bool :=
  status matches .filled | .failed | .rejected | .executorRejected

namespace VirtualAccount

variable (N : Numerics) (a : VirtualAccount)

/-- Raise both counters to the minimum that the retained rows imply. -/
def raiseToMinimum (token : String) : VirtualAccount :=
  let minimumCash := a.orders.sumBy fun _ order => order.reservedCash
  let minimumPosition :=
    a.orders.sumBy fun _ order => if order.tokenId = token then order.reservedQuantity else 0
  let quota := a.position token
  { a with reservedCash := AtomicF64.ensureAtLeast N.tol a.reservedCash minimumCash }.setPosition
    token { quota with reserved := AtomicF64.ensureAtLeast N.tol quota.reserved minimumPosition }

/-- Reserve the cash of a request against the balance. -/
def tryReserveCash (r : OrderRequest) : Except ReservationError VirtualAccount :=
  if 0 < r.reserveCash then
    match AtomicF64.tryReserve N.tol a.reservedCash a.cash r.reserveCash with
    | .error available => .error (.insufficientVirtualCash r.reserveCash available)
    | .ok reserved => .ok { a with reservedCash := reserved }
  else .ok a

/-- Reserve the tokens of a request against the balance. -/
def tryReservePosition (r : OrderRequest) : Except ReservationError VirtualAccount :=
  if 0 < r.reserveQuantity then
    let quota := a.position r.tokenId
    match AtomicF64.tryReserve N.tol quota.reserved quota.balance r.reserveQuantity with
    | .error available =>
      .error (.insufficientVirtualPosition r.tokenId r.reserveQuantity available)
    | .ok reserved => .ok (a.setPosition r.tokenId { quota with reserved := reserved })
  else .ok a

/-- The counters after a request is reserved. Cash and tokens are never reserved by one request,
so the source's cash rollback on the second error path has nothing to undo. -/
def tryReserve (r : OrderRequest) : Except ReservationError VirtualAccount :=
  match a.tryReserveCash N r with
  | .error e => .error e
  | .ok a => a.tryReservePosition N r

variable (coid : String)

/-- A filled order waits for trades: for the audited ones, or while it reserves anything. -/
def fillAuditPending (order : OrderOwnership) : Bool :=
  if order.terminalTradeIdsAuthoritative then !a.terminalOrderAuditCompleteVirtual N coid
  else decide (N.tol.eps < order.reservedCash) || decide (N.tol.eps < order.reservedQuantity)

/-- Stronger evidence is in place, or the acknowledgement is a duplicate. -/
def cancelAckSuperseded (order : OrderOwnership) : Bool :=
  order.terminalMatchedQuantity.isSome || order.terminalTradeIdsAuthoritative ||
    (order.status matches .filled | .failed | .rejected) ||
    (order.status == .cancelled && decide (coid ∈ a.routineCancelAudits))

/-- Write an audited row; the order is released when every audited trade is known, and is
recovered otherwise. -/
def applyAudit (order audited : OrderOwnership) : FillAuditPendingTransition × VirtualAccount :=
  let alreadyPending := decide (coid ∈ a.recoveryPendingOrders)
  let a := (a.rewriteOrder N coid order audited).setRoutineAudit coid false
  let complete := a.terminalOrderAuditCompleteVirtual N coid
  let a :=
    if complete then
      ((a.releaseVirtualOrderReservation N coid).setRecovery coid false).clearStartupRepair coid
    else a.setRecovery coid true
  let a := a.setCancelAuditAnomaly coid false
  let transition :=
    if complete then .resolved else if alreadyPending then .alreadyPending else .newlyPending
  (transition, a.recordVirtualTradeMutation "" coid order.tokenId)

/-- What a bare cancellation acknowledgement does to a tracked order. -/
def cancelledPendingAudit (order : OrderOwnership) : Bool × VirtualAccount :=
  if a.cancelAckSuperseded coid order then
    (decide (coid ∈ a.recoveryPendingOrders) || decide (coid ∈ a.routineCancelAudits), a)
  else
    let a := a.setOrder coid { order with
      status := .cancelled
      terminalMatchedQuantity := none
      terminalTradeIds := []
      terminalTradeIdsAuthoritative := false }
    let a := ((a.setRecovery coid false).clearStartupRepair coid).setRoutineAudit coid true
    (true, a.recordVirtualTradeMutation "" coid order.tokenId)

end VirtualAccount

/-! ## Operations -/

namespace AccountState

variable (N : Numerics) (s : AccountState)

variable (coid : String)

/-- `virtual_account_for_coid`: the client order id is routed to this shard. -/
def ownsCoid : Bool :=
  s.registry.coidRoutes.lookup coid == some s.account.instanceId

/-- Install both routes of an order. -/
def insertRoutes (coid normalizedOrderId : String) : AccountState :=
  { s with registry := { s.registry with
      coidRoutes := s.registry.coidRoutes.insert coid s.account.instanceId
      oidRoutes := s.registry.oidRoutes.insert normalizedOrderId s.account.instanceId } }

/-! ## Creation -/

def reserveOrderWithFeePolicy (r : OrderRequest) (allowFeeDegraded : Bool) :
    Except ReservationError OrderOwnership × AccountState :=
  if r.clientOrderId = "" ∨ r.orderId = "" ∨ r.tokenId = "" ∨ r.quantity ≤ 0 ∨ r.price ≤ 0 then
    (.error (.invalidOrder "coid/oid/token must be present and quantity/price must be positive"), s)
  else if !s.registry.seeded then (.error .accountNotSeeded, s)
  else if !s.registry.admits allowFeeDegraded then
    (.error .accountUncertain, s)
  else if r.instanceId ≠ s.account.instanceId then (.error (.unknownInstance r.instanceId), s)
  else
    match s.account.orders.lookup r.clientOrderId with
    | some existing =>
      if normalizeOrderId existing.orderId = normalizeOrderId r.orderId ∧
          existing.instanceId = r.instanceId then (.ok existing, s)
      else (.error (.duplicateClientOrderId r.clientOrderId), s)
    | none =>
      if (s.registry.coidRoutes.lookup r.clientOrderId).isSome then
        (.error (.duplicateClientOrderId r.clientOrderId), s)
      else if (s.registry.oidRoutes.lookup (normalizeOrderId r.orderId)).isSome then
        (.error
          (.invalidOrder ("order_id `" ++ r.orderId ++ "` is already owned by another order")),
          s)
      else
        match s.account.tryReserve N r with
        | .error e => (.error e, s)
        | .ok a =>
          let ownership := r.ownership s.registry.accountId orderSlotUnassigned
          let a := (a.setOrder r.clientOrderId ownership).bumpReservationEpoch
          (.ok ownership,
            { s with account := a }.insertRoutes r.clientOrderId (normalizeOrderId r.orderId))

variable (o : OrderOwnership)

/-- Whether a row is freshly prepared, as `register_prepared_order` checks it. -/
def isFreshlyPrepared : Bool :=
  let desired := desiredOrderReservation o
  decide (o.accountId = s.registry.accountId ∧ o.clientOrderId ≠ "" ∧ o.orderId ≠ "" ∧
    o.tokenId ≠ "" ∧ o.status = .pending ∧ o.filledQuantity = 0 ∧
    o.terminalMatchedQuantity = none ∧ o.terminalTradeIds = [] ∧
    o.terminalTradeIdsAuthoritative = false ∧ 0 < o.quantity ∧ 0 < o.price ∧
    0 ≤ o.reservedCash ∧ 0 ≤ o.reservedQuantity ∧
    |desired.1 - o.reservedCash| ≤ N.tol.eps ∧ |desired.2 - o.reservedQuantity| ≤ N.tol.eps)

def registerPreparedOrder : Option OrderOwnership × AccountState :=
  if !s.isFreshlyPrepared N o then (none, s)
  else if o.instanceId ≠ s.account.instanceId then (none, s)
  else
    match s.account.orders.lookup o.clientOrderId with
    | some existing => (if sameIdentity existing o then some existing else none, s)
    | none =>
      if (s.registry.coidRoutes.lookup o.clientOrderId).isSome ∨
          (s.registry.oidRoutes.lookup (normalizeOrderId o.orderId)).isSome then (none, s)
      else
        let a := (s.account.setOrder o.clientOrderId o).adjustReservation N o.tokenId
          o.reservedCash o.reservedQuantity
        (some o, { s with account := a.bumpReservationEpoch }.insertRoutes o.clientOrderId
          (normalizeOrderId o.orderId))

def backfillOrderOwnership : Option OrderOwnership × AccountState :=
  if o.accountId ≠ s.registry.accountId ∨ o.clientOrderId = "" ∨ o.orderId = "" then (none, s)
  else if o.instanceId ≠ s.account.instanceId then (none, s)
  else
    let normalized := normalizeOrderId o.orderId
    let existing := s.account.orders.lookup o.clientOrderId
    if existing.any (fun e =>
        normalizeOrderId e.orderId != normalized || e.instanceId != o.instanceId) then (none, s)
    else if (s.registry.coidRoutes.lookup o.clientOrderId).any (· != o.instanceId) ||
        (s.registry.oidRoutes.lookup normalized).any (· != o.instanceId) then (none, s)
    else
      let a :=
        match existing with
        | some _ => s.account
        | none =>
          ((s.account.setOrder o.clientOrderId o).raiseToMinimum N o.tokenId).bumpReservationEpoch
      (some (existing.getD o), { s with account := a }.insertRoutes o.clientOrderId normalized)

/-- `rebind_order_id`. An id conflict is refused; the source also records an anomaly. -/
def rebindOrderId (coid orderId : String) : Bool × AccountState :=
  if coid = "" ∨ orderId = "" ∨ !s.ownsCoid coid then (false, s)
  else
    match s.account.orders.lookup coid with
    | none => (false, s)
    | some order =>
      let normalized := normalizeOrderId orderId
      let normalizedOld := normalizeOrderId order.orderId
      if normalizedOld = normalized then (true, s)
      else
        let conflicts := s.account.orders.entries.any fun e =>
          e.1 != coid && normalizeOrderId e.2.orderId == normalized
        let routedElsewhere :=
          (s.registry.oidRoutes.lookup normalized).any (· != s.account.instanceId)
        if conflicts || routedElsewhere then (false, s)
        else
          let a := s.account.setOrder coid { order with orderId := orderId }
          let oidRoutes :=
            (s.registry.oidRoutes.insert normalized a.instanceId).erase normalizedOld
          (true, ⟨{ s.registry with oidRoutes := oidRoutes },
            a.recordVirtualTradeMutation "" coid order.tokenId⟩)

/-! ## Status marks -/

/-- Run an operation on the order row of a client order id that is routed to this shard. -/
def withOrder {α : Type} (coid : String) (absent : α)
    (f : OrderOwnership → α × VirtualAccount) : α × AccountState :=
  if !s.ownsCoid coid then (absent, s)
  else
    match s.account.orders.lookup coid with
    | none => (absent, s)
    | some order => ((f order).1, { s with account := (f order).2 })

variable (status : OrderStatus)

/-- `mark_order_status_effective_with_policy`. The reservation is not touched. -/
def markOrderStatusEffectiveWithPolicy
    (allowTerminalResurrection : Bool) : Option OrderStatus × AccountState :=
  s.withOrder coid none fun order =>
    if markIsStale order.status status allowTerminalResurrection then (some order.status, s.account)
    else
      (some status, (s.account.setOrder coid { order with status := status })
        |>.recordVirtualTradeMutation "" coid order.tokenId)

def markFilledPendingAudit : FillAuditPendingTransition × AccountState :=
  s.withOrder coid .notTracked fun order =>
    let a := s.account.setOrder coid { order with status := .filled }
    let pending := a.fillAuditPending N coid order
    let alreadyPending := decide (coid ∈ a.recoveryPendingOrders)
    let a := a.setRoutineAudit coid false
    let a := if pending then a.setRecovery coid true else a
    let transition :=
      if !pending then .resolved else if alreadyPending then .alreadyPending else .newlyPending
    (transition, a.recordVirtualTradeMutation "" coid order.tokenId)

/-- `release_order`. Only the routine cancel audit is cleared, whatever the status. -/
def releaseOrder : AccountState :=
  (s.withOrder coid () fun order =>
    let a := s.account.rewriteOrder N coid order (releasedOrder order status)
    ((), (a.setRoutineAudit coid false).recordVirtualTradeMutation "" coid order.tokenId)).2

/-! ## Audits -/

def applyAuthoritativeOrderAuditInner
    (audit : AuthoritativeOrderAudit) (expectedUnmatched : Option OrderOwnership) :
    Except AuditError FillAuditPendingTransition × AccountState :=
  if !auditStatusTerminal status then (.error (.requiresTerminalStatus status), s)
  else
    match audit.parse with
    | .error e => (.error e, s)
    | .ok (original, matched, tradeIds) =>
      s.withOrder coid (.ok .notTracked) fun order =>
        if expectedUnmatched.any (unmatchedCandidateChanged order) then
          (.error (.candidateChanged coid), s.account)
        else if auditDisagrees N.tol order original matched tradeIds then
          (.error (.disagrees coid original matched order.quantity order.filledQuantity), s.account)
        else
          let result := s.account.applyAudit N coid order
            (auditedOrder order status matched tradeIds)
          (.ok result.1, result.2)

def applyAuthoritativeOrderAudit (audit : AuthoritativeOrderAudit) :
    Except AuditError FillAuditPendingTransition × AccountState :=
  s.applyAuthoritativeOrderAuditInner N coid status audit none

variable (expected : OrderOwnership)

def applyZeroFillRecovery : Except AuditError FillAuditPendingTransition × AccountState :=
  s.applyAuthoritativeOrderAuditInner N expected.clientOrderId .cancelled
    ⟨some (some expected.quantity), some (some 0), []⟩ (some expected)

/-- `mark_cancelled_pending_trade_audit`. The routine audit is cleared before anything is
checked, and stays cleared when the audited size is refused. -/
def markCancelledPendingTradeAudit (sizeMatched : ℚ) : Bool × AccountState :=
  if !s.ownsCoid coid then (false, s)
  else
    let a := s.account.setRoutineAudit coid false
    match a.orders.lookup coid with
    | none => (false, { s with account := a })
    | some order =>
      if sizeAuditRefused N.tol order sizeMatched then
        (true, { s with account := a.setCancelAuditAnomaly coid true })
      else
        let cancelled := sizeAuditedOrder order sizeMatched
        let a := a.rewriteOrder N coid order cancelled
        let pending := decide (N.tol.eps < cancelled.reservedCash) ||
          decide (N.tol.eps < cancelled.reservedQuantity)
        let a := (a.setRecovery coid pending).setCancelAuditAnomaly coid false
        (pending, { s with account := a.recordVirtualTradeMutation "" coid order.tokenId })

def markCancelledPendingAudit : Bool × AccountState :=
  s.withOrder coid false fun order => s.account.cancelledPendingAudit coid order

/-! ## Recovery commands -/

def inferNullCancellation : Except RecoveryError OrderOwnership × AccountState :=
  let coid := expected.clientOrderId
  s.withOrder coid (.error .ownerMissing) fun order =>
    if order.accountId ≠ expected.accountId ∨ order.instanceId ≠ expected.instanceId ∨
        order.orderId ≠ expected.orderId ∨ order.orderId = "" ∨
        order.orderSlot ≠ expected.orderSlot ∨ order.tokenId ≠ expected.tokenId ∨
        order.side ≠ expected.side ∨ order.quantity ≠ expected.quantity ∨
        order.price ≠ expected.price then
      (.error .identityChanged, s.account)
    else if recoveryStatusFinal order.status then (.ok order, s.account)
    else
      let cancelled := nullCancelledOrder order
      let a := s.account.rewriteOrder N coid order cancelled
      let a := ((a.setRoutineAudit coid false).setRecovery coid false).clearStartupRepair coid
      (.ok cancelled, a.recordVirtualTradeMutation "" coid order.tokenId)

def confirmRecoveryCancellation : Except RecoveryError OrderOwnership × AccountState :=
  let coid := expected.clientOrderId
  s.withOrder coid (.error .ownerMissing) fun order =>
    if order.accountId ≠ expected.accountId ∨ order.instanceId ≠ expected.instanceId ∨
        order.clientOrderId ≠ expected.clientOrderId ∨ order.orderId ≠ expected.orderId ∨
        order.orderId = "" ∨ order.tokenId ≠ expected.tokenId ∨ order.side ≠ expected.side ∨
        order.orderSlot ≠ expected.orderSlot ∨ order.quantity ≠ expected.quantity ∨
        order.price ≠ expected.price ∨ order.feeRateBps ≠ expected.feeRateBps ∨
        order.cashFeePerShare ≠ expected.cashFeePerShare then
      (.error .identityChanged, s.account)
    else if recoveryStatusFinal order.status then (.ok order, s.account)
    else
      let a := (s.account.cancelledPendingAudit coid order).2
      (.ok ((a.orders.lookup coid).getD order), a)

end AccountState

end HexAgent.Account
