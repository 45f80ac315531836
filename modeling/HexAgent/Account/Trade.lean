import HexAgent.Account.Lifecycle

/-!
# Trade transitions of the virtual account

`apply_trade_transition_virtual` applies one edge of a trade's lifecycle to the shard that owns
the trade: the first MATCHED, MINED or CONFIRMED edge books the principal and consumes the order's
reservation, a FAILED edge reverses a booking and restores the reservation, later edges advance
the row, and an edge that does not advance the row only repairs its fee. Late edges are accepted
after the order became terminal.

An edge that this path does not decide falls back to the account-wide cold path, which is outside
this model. The fallback is returned as `VirtualTradeAttempt.fallback`, with whatever the edge had
already changed.
-/

namespace HexAgent.Account

variable {order : OrderOwnership} (price : ℚ)

/-- Role, match time and fee data that the private lane knows of a trade. -/
structure TradeContext where
  isMaker : Bool
  matchTimeSecs : ℕ
  fee : Option ExecutionFeeContext
  deriving DecidableEq

/-- One edge of a trade's lifecycle, as the private feed reports it. -/
structure TradeEdge where
  tradeKey : String
  status : TradeStatus
  clientOrderId : String
  orderId : String
  tokenId : String
  side : Side
  quantity : ℚ
  price : ℚ
  context : Option TradeContext
  deriving DecidableEq

/-- Economic effect of an accepted edge. -/
structure TradeTransitionAccounting where
  ownership : TradeOwnership
  fillDelta : ℚ
  matchedSize : ℚ
  tradeFee : Option TradeFee
  deriving DecidableEq

/-- Outcome of the shard's own path. -/
inductive VirtualTradeAttempt
  | applied (accounting : TradeTransitionAccounting)
  | ownedNoop (accounting : TradeTransitionAccounting)
  | fallback
  deriving DecidableEq

/-! ## Checks -/

variable (tol : Tolerance)

def fixedPointTradePriceTolerance (referencePrice quantity : ℚ) : ℚ :=
  let arithmeticSlack := max |referencePrice| 1 * tol.float * 8
  if 0 < quantity then max (tol.atomicUnit / quantity) arithmeticSlack else arithmeticSlack

/-- `select_execution_price`: the stored price of a known trade, else the execution price. -/
def selectExecutionPrice (prior : Option AppliedTrade) (quantity rawPrice : ℚ)
    (incoming : Option TradeExecutionPricing) : Option ℚ :=
  let valid := fun pricing : TradeExecutionPricing =>
    decide (0 < pricing.rawPrice ∧ pricing.rawPrice < 1 ∧ 0 < pricing.grossNotional ∧
      pricing.grossNotional < quantity)
  if incoming.any fun pricing => !valid pricing then none
  else
    match prior with
    | none => some (incoming.elim rawPrice fun pricing => pricing.grossNotional / quantity)
    | some trade =>
      let price := trade.ownership.price
      let tolerance := fixedPointTradePriceTolerance tol price trade.ownership.quantity
      let changed :=
        match trade.executionPricing, incoming with
        | none, _ => decide (tolerance < |rawPrice - price|)
        | some frozen, some pricing =>
          decide (tolerance * trade.ownership.quantity <
            |pricing.grossNotional - frozen.grossNotional|)
        | some frozen, none =>
          decide (tolerance < |rawPrice - frozen.rawPrice|) &&
            decide (tolerance < |rawPrice - price|)
      if changed then none else some price

/-- `validate_owned_trade_replay`: identity and economics of a known trade did not change. -/
def validateOwnedTradeReplay (prior : TradeOwnership) (clientOrderId : String)
    (e : TradeEdge) (price : ℚ) : Bool :=
  let normalized := normalizeOrderId e.orderId
  decide ((clientOrderId = "" ∨ prior.clientOrderId = clientOrderId) ∧ normalized ≠ "" ∧
    normalizeOrderId prior.orderId = normalized ∧ prior.tokenId = e.tokenId ∧
    prior.side = e.side ∧
    |prior.quantity - e.quantity| ≤ max tol.relative (|prior.quantity| * tol.relative) ∧
    |prior.price - price| ≤ fixedPointTradePriceTolerance tol prior.price prior.quantity)

def fillViolatesLimit (side : Side) (limitPrice fillPrice fillQuantity : ℚ) : Bool :=
  let adversePrice :=
    match side with
    | .buy => fillPrice - limitPrice
    | .sell => limitPrice - fillPrice
  if adversePrice ≤ 0 then false
  else
    let slack := max (max |fillPrice| |limitPrice| * fillQuantity) 1 * tol.float * 8
    decide (tol.atomicUnit + slack < adversePrice * fillQuantity)

/-- A fill at a price worse than the limit, or beyond the size of the order. -/
def fillRefused (order : OrderOwnership) (e : TradeEdge) (price : ℚ)
    (existing : Option AppliedTrade) : Bool :=
  let quantityTolerance := max tol.relative (|order.quantity| * tol.relative)
  fillViolatesLimit tol e.side order.price price e.quantity ||
    (existing.all (!·.booked) && e.status != .failed &&
      decide (order.quantity + quantityTolerance < order.filledQuantity + e.quantity))

/-- The numbers of an edge are usable. -/
def TradeEdge.isValid (e : TradeEdge) : Bool :=
  decide (e.tradeKey ≠ "" ∧ 0 < e.quantity ∧ 0 < e.price ∧ e.price ≤ 1 + tol.relative)

section

variable (applied : AppliedTrade) (e : TradeEdge)

/-- An edge that does not advance a known trade. -/
def TradeEdge.isReplay : Bool :=
  (applied.failed && e.status != .confirmed) || applied.ownership.status == .confirmed ||
    decide (e.status.rank ≤ applied.ownership.status.rank)

/-! ## Rows -/

/-- The match time of a known trade after an edge that keeps the row. -/
def TradeEdge.matchTime : ℕ :=
  e.context.elim applied.matchTimeSecs fun context =>
    max applied.matchTimeSecs context.matchTimeSecs

/-- The role of the edge, if it has one, is not another than that of the row. -/
abbrev TradeEdge.InRole (e : TradeEdge) (t : AppliedTrade) : Prop :=
  (e.context.any fun context => t.isMaker.any (· != context.isMaker)) = false

/-- The row of a known trade whose status an edge advances. -/
def TradeEdge.advancedRow : AppliedTrade :=
  { applied with
    ownership := { applied.ownership with
      status := if applied.failed then applied.ownership.status else e.status }
    matchTimeSecs := e.matchTime applied }

end

/-- The order row after a booked fill, and whether the order is now filled to its target. -/
def bookOrder (order : OrderOwnership) (quantity : ℚ) : OrderOwnership × Bool :=
  let cancellationAuditPending := order.status == .cancelled
  let filled := min (order.filledQuantity + quantity) order.quantity
  let fillTarget := min (order.terminalMatchedQuantity.getD order.quantity) order.quantity
  let fullyFilled := decide (fillTarget ≤ filled + tol.eps)
  let open_ := order.terminalMatchedQuantity.isNone && !cancellationAuditPending
  let status :=
    if fullyFilled then
      if open_ || (order.inferredCancel && decide (order.quantity ≤ filled + tol.eps)) then .filled
      else order.status
    else if open_ then .partiallyFilled
    else order.status
  let order := { order with filledQuantity := filled, status := status }
  (order.withReservation (desiredOrderReservation order), fullyFilled)

/-- The filled quantity and the audited target after a reversed fill. -/
def reverseFill (order : OrderOwnership) (quantity : ℚ) : OrderOwnership :=
  let filled := max (order.filledQuantity - quantity) 0
  let target :=
    if order.status == .cancelled && !order.terminalTradeIdsAuthoritative then
      order.terminalMatchedQuantity.map fun target => max (target - quantity) filled
    else order.terminalMatchedQuantity
  { order with filledQuantity := filled, terminalMatchedQuantity := target }

/-- The order row after a failed trade, and whether it needs recovery. -/
def failOrder (order : OrderOwnership) (quantity : ℚ) (shouldReverse : Bool) :
    OrderOwnership × Bool :=
  let order := if shouldReverse then reverseFill order quantity else order
  let cancellationAuditPending :=
    order.status == .cancelled && order.terminalMatchedQuantity.isNone
  let offBook := order.status == .rejected
  let status :=
    if shouldReverse && !offBook && order.status != .cancelled then
      if order.inferredCancel then .cancelled
      else if tol.eps < order.filledQuantity then .partiallyFilled
      else .accepted
    else order.status
  let order := { order with status := status }
  let desired := if offBook then (0, 0) else desiredOrderReservation order
  (order.withReservation desired, cancellationAuditPending ||
    (order.status == .cancelled && (decide (tol.eps < desired.1) || decide (tol.eps < desired.2))))

/-- What an edge does to its trade. -/
structure TradeMove where
  shouldBook : Bool
  shouldMarkSettled : Bool
  shouldReverse : Bool
  shouldReverseSettled : Bool
  deriving DecidableEq

/-- The moves of an edge, given the stored row. -/
def tradeMove (status : TradeStatus) (existing : Option AppliedTrade) : TradeMove :=
  let alreadyBooked := existing.any (·.booked)
  let settlementObserved := existing.any (·.physicalBooked)
  let isFailed := status == .failed
  let reachesSettlement := status matches .mined | .confirmed
  { shouldBook := !isFailed && !alreadyBooked
    shouldMarkSettled := !isFailed && reachesSettlement && !settlementObserved
    shouldReverse := isFailed && alreadyBooked
    shouldReverseSettled := isFailed && settlementObserved }

/-- The edge only advances the status of a known trade. -/
def TradeMove.isNone (move : TradeMove) : Bool :=
  !move.shouldBook && !move.shouldMarkSettled && !move.shouldReverse && !move.shouldReverseSettled

/-- Fee curve bound to the row that an edge writes. -/
def executionFeeConfig (existing : Option AppliedTrade) (context : Option ExecutionFeeContext)
    (current : Option FeeBasis) : Option FeeBasis :=
  match existing with
  | some trade => feeConfigForTrade trade current
  | none =>
    let selected := ((context.bind (·.selectedBasis)).or current).or (context.bind (·.fallback))
    selected.map fun config =>
      context.elim config fun context => { config with settlement := context.settlement }

/-- The trade row that an edge writes. -/
def transitionedTrade (existing : Option AppliedTrade) (ownership : TradeOwnership)
    (context : Option TradeContext) (current : Option FeeBasis) (move : TradeMove) :
    AppliedTrade :=
  let feeContext := context.bind (·.fee)
  let config := executionFeeConfig existing feeContext current
  let isFailed := ownership.status == .failed
  let alreadyBooked := existing.any (·.booked)
  let settlementObserved := existing.any (·.physicalBooked)
  { executionPricing := existing.elim (feeContext.bind (·.executionPricing)) (·.executionPricing)
    feeSettlement := ((existing.bind (·.feeSettlement)).or (feeContext.map (·.settlement))).or
      (config.map (·.settlement))
    feeConfig := config
    ownership := ownership
    booked := move.shouldBook || (alreadyBooked && !move.shouldReverse)
    physicalBooked := move.shouldMarkSettled || (settlementObserved && !move.shouldReverseSettled)
    usdcFee := existing.elim 0 (·.usdcFee)
    sharesFee := existing.elim 0 (·.sharesFee)
    virtualFeeBooked := existing.any (·.virtualFeeBooked)
    physicalFeeBooked := existing.any (·.physicalFeeBooked) && !move.shouldReverseSettled
    failed := isFailed
    failureReconciled := isFailed || existing.any (·.failureReconciled)
    isMaker := (context.map (·.isMaker)).or (existing.bind (·.isMaker))
    matchTimeSecs := context.elim (existing.elim 0 (·.matchTimeSecs)) (·.matchTimeSecs)
    ledgerGeneration := existing.elim 0 (·.ledgerGeneration) }

/-! ## The transition -/

namespace VirtualAccount

variable {a : VirtualAccount} (e : TradeEdge) (move : TradeMove)

/-- Move cash and tokens by the principal of a booked or reversed trade. -/
def movePrincipal (N : Numerics) (a : VirtualAccount) (e : TradeEdge) (price : ℚ)
    (move : TradeMove) : VirtualAccount :=
  if move.shouldBook || move.shouldReverse then
    let sign : ℚ := if e.side = .buy then 1 else -1
    let multiplier : ℚ := if move.shouldReverse then -1 else 1
    (a.addCash N (-sign * e.quantity * price * multiplier)).addPosition N e.tokenId
      (sign * e.quantity * multiplier)
  else a

variable {N : Numerics}

lemma movePrincipal_trades : (a.movePrincipal N e price move).trades = a.trades := by
  unfold movePrincipal
  split <;> rfl

lemma movePrincipal_orders (a : VirtualAccount) (e : TradeEdge) (price : ℚ) (move : TradeMove) :
    (a.movePrincipal N e price move).orders = a.orders := by
  unfold movePrincipal
  split <;> rfl

/-- Rewrite the order row for a booked or failed trade. -/
def settleOrder (N : Numerics) (a : VirtualAccount) (coid : String) (order : OrderOwnership)
    (e : TradeEdge) (move : TradeMove) : VirtualAccount :=
  if e.status = .failed then
    let result := failOrder N.tol order e.quantity move.shouldReverse
    (a.rewriteOrder N coid order result.1).setRecovery coid result.2
  else if move.shouldBook then
    a.rewriteOrder N coid order (bookOrder N.tol order e.quantity).1
  else a

lemma settleOrder_trades {coid : String} :
    (a.settleOrder N coid order e move).trades = a.trades := by
  have hadj (b : VirtualAccount) (token : String) (cashDelta delta : ℚ) :
      (b.adjustReservation N token cashDelta delta).trades = b.trades := by
    unfold adjustReservation adjustReservedPosition adjustReservedCash
    split <;> split <;> rfl
  unfold settleOrder rewriteOrder
  split
  · exact hadj _ _ _ _
  split
  · exact hadj _ _ _ _
  · rfl

/-- Release the order if its terminal audit is now complete; an order filled to its target
without such an audit leaves recovery. -/
def closeAudit (N : Numerics) (a : VirtualAccount) (coid : String) (fullyFilled : Bool) :
    VirtualAccount :=
  if a.terminalOrderAuditCompleteVirtual N coid then
    (a.releaseVirtualOrderReservation N coid).setRecovery coid false
  else if fullyFilled && !((a.orders.lookup coid).any (·.terminalTradeIdsAuthoritative)) then
    a.setRecovery coid false
  else a

/-- Filled quantity of an order, with a default for a missing row. -/
def matchedSize (a : VirtualAccount) (coid : String) (default : ℚ) : ℚ :=
  (a.orders.lookup coid).elim default (·.filledQuantity)

/-- Fee attributed to a trade. -/
def tradeFee (a : VirtualAccount) (tradeKey : String) : Option TradeFee :=
  (a.trades.lookup tradeKey).bind attributedTradeFee

end VirtualAccount

namespace AccountState

variable (N : Numerics) (s : AccountState)

/-- `mark_virtual_fee_pending`: taker admission pauses while a fee is not attributed. -/
def markVirtualFeePending (tradeKey : String) : AccountState :=
  if tradeKey ∈ s.account.feeAttributionPending then
    { s with registry := { s.registry with
        admission := false
        passiveAdmission := s.registry.seeded && !s.registry.persistenceFailed } }
  else s

@[simp] lemma markVirtualFeePending_account {s : AccountState} {key : String} :
    (s.markVirtualFeePending key).account = s.account := by
  unfold markVirtualFeePending
  split <;> rfl

variable (e : TradeEdge)

/-- Current fee curve that a taker leg of an edge is attributed with. -/
def takerFeeConfig (context : TradeContext) : Option FeeBasis :=
  if context.isMaker then none else s.registry.tokenFeeConfigs.lookup e.tokenId

/-- The fee transition of an edge; without a context the fee stays to be attributed. -/
def applyEdgeFee (status : OrderStatus) : Except FeeTransitionError Bool × AccountState :=
  match e.context with
  | none => (.ok false, s)
  | some context =>
    let result := s.account.applyTradeFeeTransitionVirtual N e.tradeKey status context.isMaker
      (s.takerFeeConfig e context)
    (result.1, { s with account := result.2 })

/-- An edge that does not advance its trade: only the match time and the fee may change. -/
def replayOwnedTrade (price : ℚ) (applied : AppliedTrade) : VirtualTradeAttempt × AccountState :=
  if !validateOwnedTradeReplay N.tol applied.ownership e.clientOrderId e price then (.fallback, s)
  else if e.context.any fun context => applied.isMaker.any (· != context.isMaker) then
    (.fallback, s)
  else
    let timeChanged := e.context.any fun context =>
      decide (applied.matchTimeSecs < context.matchTimeSecs)
    let matchTime := e.context.elim applied.matchTimeSecs fun context =>
      max applied.matchTimeSecs context.matchTimeSecs
    let timed :=
      if timeChanged then
        { s with account :=
          s.account.setTrade e.tradeKey { applied with matchTimeSecs := matchTime } }
      else s
    -- The stored terminal state decides the fee, not the ignored edge.
    let feeStatus : OrderStatus :=
      if applied.failed || applied.ownership.status == .failed then .failed else .partiallyFilled
    match timed.applyEdgeFee N e feeStatus with
    | (.error _, s) => (.fallback, s)
    | (.ok feeChanged, s) =>
      let s := if e.context.isSome then s.markVirtualFeePending e.tradeKey else s
      let coid := applied.ownership.clientOrderId
      let s :=
        if timeChanged || feeChanged then
          { s with account := s.account.recordVirtualTradeMutation e.tradeKey coid e.tokenId }
        else s
      (.ownedNoop ⟨applied.ownership, 0, s.account.matchedSize coid 0,
        s.account.tradeFee e.tradeKey⟩, s)

/-- An edge that only advances the status of a known trade. -/
def advanceStatus (coid : String) (order : OrderOwnership)
    (existing : AppliedTrade) : VirtualTradeAttempt × AccountState :=
  let ownership := { existing.ownership with
    status := if existing.failed then existing.ownership.status else e.status }
  let trade := { existing with
    ownership := ownership
    matchTimeSecs := e.context.elim existing.matchTimeSecs fun context =>
      max existing.matchTimeSecs context.matchTimeSecs }
  let advanced := { s with account := s.account.setTrade e.tradeKey trade }
  let feeStatus : OrderStatus := if e.status = .failed then .failed else .partiallyFilled
  match advanced.applyEdgeFee N e feeStatus with
  | (.error _, s) => (.fallback, s)
  | (.ok _, s) =>
    let s := if e.context.isSome then s.markVirtualFeePending e.tradeKey else s
    let s := { s with account := s.account.recordVirtualTradeMutation e.tradeKey coid e.tokenId }
    (.applied ⟨ownership, 0, order.filledQuantity, s.account.tradeFee e.tradeKey⟩, s)

/-- Owner data of the row that an edge writes. -/
def edgeOwnership (price : ℚ) (coid : String) (order : OrderOwnership) : TradeOwnership where
  orderSlot := order.orderSlot
  accountId := s.registry.accountId
  instanceId := s.account.instanceId
  tradeKey := e.tradeKey
  clientOrderId := coid
  orderId := e.orderId
  tokenId := e.tokenId
  side := e.side
  quantity := e.quantity
  price := price
  status := e.status

/-- The shard after balances, order row and trade row were written, before the fee. -/
def writeEdge (price : ℚ) (coid : String) (order : OrderOwnership)
    (existing : Option AppliedTrade) (move : TradeMove) : AccountState :=
  let trade := transitionedTrade existing (s.edgeOwnership e price coid order) e.context
    (s.registry.tokenFeeConfigs.lookup e.tokenId) move
  let a := (s.account.movePrincipal N e price move).settleOrder N coid order e move
  let a := a.setTrade e.tradeKey trade
  { s with account := if e.context.isNone then a.setFeePending e.tradeKey true else a }

/-- The shard after the fee of the edge as well. -/
def edgeWritten (price : ℚ) (coid : String) (order : OrderOwnership)
    (existing : Option AppliedTrade) (move : TradeMove) :
    Except FeeTransitionError Bool × AccountState :=
  (s.writeEdge N e price coid order existing move).applyEdgeFee N e
    (if e.status = .failed then .failed else .partiallyFilled)

/-- Stamp the row with a new ledger generation if the edge changed economics. -/
def stampGeneration (tradeKey : String) (changed : Bool) : AccountState :=
  if changed then
    let generation := s.registry.ledgerGeneration + 1
    let a := match s.account.trades.lookup tradeKey with
      | none => s.account
      | some trade => s.account.setTrade tradeKey { trade with ledgerGeneration := generation }
    ⟨{ s.registry with ledgerGeneration := generation }, a⟩
  else s

/-- An edge that books, settles or reverses a trade. -/
def settleTrade (price : ℚ) (coid : String) (order : OrderOwnership)
    (existing : Option AppliedTrade) (move : TradeMove) : VirtualTradeAttempt × AccountState :=
  let ownership := s.edgeOwnership e price coid order
  match s.edgeWritten N e price coid order existing move with
  | (.error _, s) => (.fallback, s)
  | (.ok feeChanged, s) =>
    let s := s.markVirtualFeePending e.tradeKey
    let fullyFilled := move.shouldBook && (bookOrder N.tol order e.quantity).2
    let s := { s with account := s.account.closeAudit N coid fullyFilled }
    let s := s.stampGeneration e.tradeKey (move.shouldBook || move.shouldReverse || feeChanged)
    let s := { s with account := s.account.recordVirtualTradeMutation e.tradeKey coid e.tokenId }
    let matched := s.account.matchedSize coid order.filledQuantity
    (.applied ⟨ownership, matched - order.filledQuantity, matched,
      s.account.tradeFee e.tradeKey⟩, s)

/-- A fee that can be recomputed for a stored row does not contradict it. -/
def feeAgrees (applied : AppliedTrade) (isMaker : Bool) (current : Option FeeBasis) : Bool :=
  !(isMaker || current.isSome) ||
    !feeReplayMismatch N.tol applied
      (lifecycleTradeFeeAmounts N applied isMaker (feeConfigForTrade applied current))

/-- The stored row of a known trade agrees with an advancing edge. -/
def edgeAgrees (price : ℚ) (coid : String) (applied : AppliedTrade) : Bool :=
  validateOwnedTradeReplay N.tol applied.ownership coid e price &&
    e.context.all fun context =>
      !(applied.isMaker.any (· != context.isMaker)) &&
        feeAgrees N applied context.isMaker (s.takerFeeConfig e context)

/-- The order that an edge fills, by its client order id or else by its hash. -/
def resolveCoid : String :=
  if e.clientOrderId ≠ "" then e.clientOrderId
  else
    ((s.account.orders.entries.find? fun entry =>
      normalizeOrderId entry.2.orderId == normalizeOrderId e.orderId).map Sigma.fst).getD ""

/-- Route a trade to this shard. -/
def claimTrade (tradeKey : String) : AccountState :=
  { s with registry := { s.registry with
      tradeRoutes := s.registry.tradeRoutes.insert tradeKey s.account.instanceId } }

/-- An advancing edge whose order is known and accepts it. -/
def advanceTrade (price : ℚ) (existing : Option AppliedTrade) :
    VirtualTradeAttempt × AccountState :=
  let coid := s.resolveCoid e
  match s.account.orders.lookup coid with
  | none => (.fallback, s)
  | some order =>
    let normalized := normalizeOrderId e.orderId
    if order.instanceId ≠ s.account.instanceId ∨ normalized = "" ∨
        normalizeOrderId order.orderId ≠ normalized ∨ order.tokenId ≠ e.tokenId ∨
        order.side ≠ e.side then (.fallback, s)
    else if !existing.all (s.edgeAgrees N e price coid) then (.fallback, s)
    else if fillRefused N.tol order e price existing then (.fallback, s)
    else if (s.registry.tradeRoutes.lookup e.tradeKey).any (· != s.account.instanceId) then
      (.fallback, s)
    else
      let s := s.claimTrade e.tradeKey
      let move := tradeMove e.status existing
      match existing, move.isNone with
      | some applied, true => s.advanceStatus N e coid order applied
      | existing, _ => s.settleTrade N e price coid order existing move

/-- `apply_trade_transition_virtual`, on the shard that the trade is routed to. -/
def applyTradeTransitionVirtual : VirtualTradeAttempt × AccountState :=
  if !e.isValid N.tol then (.fallback, s)
  else
    let existing := s.account.trades.lookup e.tradeKey
    let feeContext := e.context.bind (·.fee)
    match selectExecutionPrice N.tol existing e.quantity e.price
        (feeContext.bind (·.executionPricing)) with
    | none => (.fallback, s)
    | some price =>
      if feeContext.any (frozenContextConflicts N.tol existing) then (.fallback, s)
      else if existing.any (·.failed) && e.status == .confirmed &&
          decide (e.tokenId ∈ s.registry.settledTokens) then (.fallback, s)
      else if existing.isNone && decide (e.tradeKey ∈ s.registry.retiredTrades) then (.fallback, s)
      else
        match existing with
        | some applied =>
          if e.isReplay applied then s.replayOwnedTrade N e price applied
          else s.advanceTrade N e price existing
        | none => s.advanceTrade N e price none

/-- `apply_trade_transition`: the edge reaches this shard if its trade, client order id and order
hash are routed to no other instance, at least one of them to this one, and the trade is neither
anomalous nor retired. Other edges are not decided here. -/
def applyTradeTransition : VirtualTradeAttempt × AccountState :=
  let scopes := [s.registry.tradeRoutes.lookup e.tradeKey,
    s.registry.coidRoutes.lookup e.clientOrderId,
    s.registry.oidRoutes.lookup (normalizeOrderId e.orderId)].filterMap id
  let retired := (s.registry.tradeRoutes.lookup e.tradeKey).isNone &&
    decide (e.tradeKey ∈ s.registry.retiredTrades)
  if e.status = .other ∨ e.tradeKey ∈ s.registry.anomalousTrades ∨ retired then (.fallback, s)
  else if scopes ≠ [] ∧ scopes.all (· == s.account.instanceId) then
    s.applyTradeTransitionVirtual N e
  else (.fallback, s)

end AccountState

/-! ## What an edge can do -/

/-- An edge that is not refused before its order is looked at, with the price it is booked at. -/
structure EdgeAdmitted (N : Numerics) (s : AccountState) (e : TradeEdge) (price : ℚ)
    (existing : Option AppliedTrade) : Prop where
  valid : e.isValid N.tol = true
  existing_eq : s.account.trades.lookup e.tradeKey = existing
  price_eq : selectExecutionPrice N.tol existing e.quantity e.price
    ((e.context.bind (·.fee)).bind (·.executionPricing)) = some price
  frozen : (e.context.bind (·.fee)).any (frozenContextConflicts N.tol existing) = false
  unsettled : (existing.any (·.failed) && e.status == .confirmed &&
    decide (e.tokenId ∈ s.registry.settledTokens)) = false
  live : (existing.isNone && decide (e.tradeKey ∈ s.registry.retiredTrades)) = false

/-- An edge that passed every check and advances its trade. -/
structure EdgeAccepted (N : Numerics) (s : AccountState) (e : TradeEdge) (price : ℚ)
    (order : OrderOwnership) (existing : Option AppliedTrade) : Prop
    extends EdgeAdmitted N s e price existing where
  advances : existing.any e.isReplay = false
  order_eq : s.account.orders.lookup (s.resolveCoid e) = some order
  owned : order.instanceId = s.account.instanceId
  named : normalizeOrderId e.orderId ≠ ""
  orderId_eq : normalizeOrderId order.orderId = normalizeOrderId e.orderId
  tokenId_eq : order.tokenId = e.tokenId
  side_eq : order.side = e.side
  agrees : existing.all (s.edgeAgrees N e price (s.resolveCoid e)) = true
  fits : fillRefused N.tol order e price existing = false
  routed : (s.registry.tradeRoutes.lookup e.tradeKey).any (· != s.account.instanceId) = false

/-- An accepted edge of a known trade repeats its token and side. -/
lemma EdgeAccepted.known {N : Numerics} {s : AccountState} {e : TradeEdge} {price : ℚ}
    {t : AppliedTrade} (h : EdgeAccepted N s e price order (some t)) :
    t.ownership.tokenId = e.tokenId ∧ t.ownership.side = e.side := by
  have hagr := h.agrees
  simp only [Option.all_some, AccountState.edgeAgrees, validateOwnedTradeReplay, Bool.and_eq_true,
    decide_eq_true_eq] at hagr
  exact ⟨hagr.1.2.2.2.1, hagr.1.2.2.2.2.1⟩

namespace AccountState

variable {N : Numerics} {s : AccountState} {e : TradeEdge}

lemma lookup_writeEdge (coid : String) (order : OrderOwnership) (prior : Option AppliedTrade)
    (m : TradeMove) :
    (s.writeEdge N e price coid order prior m).account.trades.lookup e.tradeKey =
      some (transitionedTrade prior (s.edgeOwnership e price coid order) e.context
        (s.registry.tokenFeeConfigs.lookup e.tokenId) m) := by
  unfold writeEdge
  split <;> exact AList.lookup_insert _

lemma inRole_transitionedTrade (existing : Option AppliedTrade) (ownership : TradeOwnership)
    (current : Option FeeBasis) (move : TradeMove) :
    e.InRole (transitionedTrade existing ownership e.context current move) := by
  unfold TradeEdge.InRole
  cases e.context <;> simp [transitionedTrade]

/-- What a replayed edge has written when it settles the fee. -/
def replayWritten (s : AccountState) (e : TradeEdge) (applied : AppliedTrade) : AccountState :=
  if (e.context.any fun context =>
      decide (applied.matchTimeSecs < context.matchTimeSecs)) = true then
    ⟨s.registry, s.account.setTrade e.tradeKey
      { applied with matchTimeSecs := e.matchTime applied }⟩
  else s

/-- The fee of an edge that keeps its row is settled on `w`. If it is refused, the edge falls back;
otherwise the edge ends, possibly with a record. -/
def FeeStage (N : Numerics) (e : TradeEdge) (w : AccountState) (status : OrderStatus)
    (r : VirtualTradeAttempt × AccountState) : Prop :=
  let fee := w.applyEdgeFee N e status
  (r.1 = .fallback ↔ fee.1.isOk = false) ∧ (r.2.account = fee.2.account ∨
    r.1 ≠ .fallback ∧ ∃ coid,
      r.2.account = fee.2.account.recordVirtualTradeMutation e.tradeKey coid e.tokenId)

/-- A property that the fee and the record keep. -/
lemma FeeStage.rule {w : AccountState} {status : OrderStatus}
    {r : VirtualTradeAttempt × AccountState} {P : VirtualAccount → Prop}
    (h : FeeStage N e w status r) (hfee : P (w.applyEdgeFee N e status).2.account)
    (hrec : ∀ a coid, P a → P (a.recordVirtualTradeMutation e.tradeKey coid e.tokenId)) :
    P r.2.account := by
  obtain ⟨-, hsame | ⟨-, coid, hrecd⟩⟩ := h
  · rw [hsame]
    exact hfee
  · rw [hrecd]
    exact hrec _ coid hfee

lemma stage_replayOwnedTrade {s : AccountState} {price : ℚ} {applied : AppliedTrade} :
    let valid := validateOwnedTradeReplay N.tol applied.ownership e.clientOrderId e price = true
    ¬(valid ∧ e.InRole applied) ∧ s.replayOwnedTrade N e price applied = (.fallback, s) ∨
      valid ∧ e.InRole applied ∧
        FeeStage N e (s.replayWritten e applied)
          (if applied.failed || applied.ownership.status == .failed then .failed
            else .partiallyFilled) (s.replayOwnedTrade N e price applied) := by
  unfold replayOwnedTrade
  split
  · next hval => exact .inl ⟨fun h => by simp [h.1] at hval, rfl⟩
  next hval =>
  split
  · next hrole => exact .inl ⟨fun h => Bool.eq_false_iff.1 h.2 hrole, rfl⟩
  next hrole =>
  refine .inr ⟨by simpa using hval, by simpa using hrole, ?_⟩
  extract_lets _ _ timed feeStatus
  have htimed : s.replayWritten e applied = timed := rfl
  rw [htimed]
  unfold FeeStage
  obtain ⟨_ | changed, u⟩ := timed.applyEdgeFee N e feeStatus
  · exact ⟨⟨fun _ => rfl, fun _ => rfl⟩, .inl rfl⟩
  · refine ⟨⟨nofun, nofun⟩, ?_⟩
    have hpend : (if e.context.isSome then u.markVirtualFeePending e.tradeKey
        else u).account = u.account := by
      split <;> simp
    dsimp only
    split
    · exact .inr ⟨nofun, _, by rw [hpend]⟩
    · exact .inl hpend

lemma stage_advanceStatus (s : AccountState) (coid : String) (order : OrderOwnership)
    (applied : AppliedTrade) :
    FeeStage N e { s with account := s.account.setTrade e.tradeKey (e.advancedRow applied) }
      (if e.status = .failed then .failed else .partiallyFilled)
      (s.advanceStatus N e coid order applied) := by
  unfold advanceStatus
  extract_lets _ _ _ advanced feeStatus
  have hadvanced : { s with account := s.account.setTrade e.tradeKey (e.advancedRow applied) } =
    advanced := rfl
  rw [hadvanced]
  unfold FeeStage
  obtain ⟨_ | _, u⟩ := advanced.applyEdgeFee N e feeStatus
  · exact ⟨⟨fun _ => rfl, fun _ => rfl⟩, .inl rfl⟩
  · refine ⟨⟨nofun, nofun⟩, .inr ⟨nofun, coid, ?_⟩⟩
    dsimp only
    split <;> simp

/-- The exits of an edge, with the row that it has written when it settles the fee. -/
inductive EdgeExit (N : Numerics) (s : AccountState) (e : TradeEdge) :
    Option AppliedTrade → VirtualTradeAttempt × AccountState → Prop
  | refused : EdgeExit N s e none (.fallback, s)
  | replayed {price : ℚ} {applied : AppliedTrade}
      (admitted : EdgeAdmitted N s e price (some applied)) (replay : e.isReplay applied = true)
      (valid : validateOwnedTradeReplay N.tol applied.ownership e.clientOrderId e price = true)
      (role : e.InRole applied) :
      EdgeExit N s e (some { applied with matchTimeSecs := e.matchTime applied })
        (s.replayOwnedTrade N e price applied)
  | advanced {price : ℚ} {order : OrderOwnership} {applied : AppliedTrade}
      (accepted : EdgeAccepted N s e price order (some applied))
      (keeps : (tradeMove e.status (some applied)).isNone = true) :
      EdgeExit N s e (some (e.advancedRow applied))
        ((s.claimTrade e.tradeKey).advanceStatus N e (s.resolveCoid e) order applied)
  | settled {price : ℚ} {order : OrderOwnership} {prior : Option AppliedTrade}
      (accepted : EdgeAccepted N s e price order prior)
      (moves : prior = none ∨ (tradeMove e.status prior).isNone = false) :
      EdgeExit N s e (some (transitionedTrade prior
          (s.edgeOwnership e price (s.resolveCoid e) order) e.context
          (s.registry.tokenFeeConfigs.lookup e.tokenId) (tradeMove e.status prior)))
        ((s.claimTrade e.tradeKey).settleTrade N e price (s.resolveCoid e) order prior
          (tradeMove e.status prior))

/-- An advancing edge is refused, advances the status of its trade, or settles it. -/
lemma exit_advanceTrade {price : ℚ} {existing : Option AppliedTrade}
    (hadm : EdgeAdmitted N s e price existing) (hadv : existing.any e.isReplay = false) :
    ∃ row, EdgeExit N s e row (s.advanceTrade N e price existing) := by
  unfold advanceTrade
  dsimp only
  split
  · exact ⟨_, .refused⟩
  next order hord =>
  split
  · exact ⟨_, .refused⟩
  next hids =>
  split
  · exact ⟨_, .refused⟩
  next hagr =>
  split
  · exact ⟨_, .refused⟩
  next hfits =>
  split
  · exact ⟨_, .refused⟩
  next hroute =>
  push Not at hids
  obtain ⟨hinst, hname, hoid, htok, hside⟩ := hids
  have hacc : EdgeAccepted N s e price order existing :=
    ⟨hadm, hadv, hord, hinst, hname, hoid, htok, hside, by simpa using hagr, by simpa using hfits,
      by simpa using hroute⟩
  split
  · next hkeeps => exact ⟨_, .advanced hacc hkeeps⟩
  next hmoves =>
  refine ⟨_, .settled hacc ((Option.eq_none_or_eq_some _).imp_right ?_)⟩
  rintro ⟨applied, hsome⟩
  simpa using hmoves applied hsome

/-- An edge takes one of the exits. -/
lemma exit_applyTradeTransitionVirtual :
    ∃ row, EdgeExit N s e row (s.applyTradeTransitionVirtual N e) := by
  unfold applyTradeTransitionVirtual
  dsimp only
  split
  · exact ⟨_, .refused⟩
  next hvalid =>
  split
  · exact ⟨_, .refused⟩
  next price hprice =>
  split
  · exact ⟨_, .refused⟩
  next hfrozen =>
  split
  · exact ⟨_, .refused⟩
  next hsettled =>
  split
  · exact ⟨_, .refused⟩
  next hretired =>
  have hadm : EdgeAdmitted N s e price (s.account.trades.lookup e.tradeKey) :=
    ⟨by simpa using hvalid, rfl, hprice, Bool.eq_false_iff.2 hfrozen, Bool.eq_false_iff.2 hsettled,
      Bool.eq_false_iff.2 hretired⟩
  split
  · next applied hexisting =>
    rw [hexisting] at hadm ⊢
    split
    · next hreplay =>
      rcases stage_replayOwnedTrade with ⟨-, heq⟩ | ⟨hval, hrole, -⟩
      · rw [heq]
        exact ⟨_, .refused⟩
      · exact ⟨_, .replayed hadm hreplay hval hrole⟩
    · next hadv => exact exit_advanceTrade hadm (by simpa using hadv)
  next hexisting =>
  rw [hexisting] at hadm
  exact exit_advanceTrade hadm rfl

/-- The outcomes of an edge. A property of the state that every outcome has holds after it. -/
lemma applyTradeTransition_cases {P : AccountState → Prop} (hsame : P s)
    (hrepl : ∀ price applied, EdgeAdmitted N s e price (some applied) →
      e.isReplay applied = true → P (s.replayOwnedTrade N e price applied).2)
    (hadvance : ∀ price order applied, EdgeAccepted N s e price order (some applied) →
      (tradeMove e.status (some applied)).isNone = true →
      P ((s.claimTrade e.tradeKey).advanceStatus N e (s.resolveCoid e) order applied).2)
    (hsettle : ∀ price order prior, EdgeAccepted N s e price order prior →
      (prior = none ∨ (tradeMove e.status prior).isNone = false) →
      P ((s.claimTrade e.tradeKey).settleTrade N e price (s.resolveCoid e) order prior
        (tradeMove e.status prior)).2) : P (s.applyTradeTransition N e).2 := by
  unfold applyTradeTransition
  dsimp only
  split
  · exact hsame
  split
  swap
  · exact hsame
  obtain ⟨row, hexit⟩ := exit_applyTradeTransitionVirtual (N := N) (s := s) (e := e)
  generalize s.applyTradeTransitionVirtual N e = r at hexit
  cases hexit with
  | refused => exact hsame
  | replayed hadm hreplay => exact hrepl _ _ hadm hreplay
  | advanced hacc hkeeps => exact hadvance _ _ _ hacc hkeeps
  | settled hacc hmoves => exact hsettle _ _ _ hacc hmoves

end AccountState

end HexAgent.Account
