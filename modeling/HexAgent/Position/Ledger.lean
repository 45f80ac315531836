import HexAgent.Account.Ledger

/-!
# The position ledger of a strategy

`PositionManager` keeps the trades of a strategy by trade id and its open orders by client order id.
Balances and quantities are folds over these two tables. A live strategy can turn on incremental
queries: six kinds of running sums that every mutation updates by the change that it makes.

Amounts are exact rationals, so the finiteness checks of the source have no counterpart here, and
the correction term of a compensated sum stays what it was.
-/

namespace HexAgent

def FeeSettlement.acceptsFeeAmounts (settlement : FeeSettlement) (side : Side) (isMaker : Bool)
    (usdcFee sharesFee tolerance : ℚ) : Bool :=
  if usdcFee < 0 ∨ sharesFee < 0 then false
  else if isMaker then usdcFee ≤ tolerance && sharesFee ≤ tolerance
  else match settlement, side with
    | .legacyV1, .buy => usdcFee ≤ tolerance
    | _, _ => sharesFee ≤ tolerance

namespace Position

/-! ## Rows -/

inductive TradeStatus
  | matched
  | mined
  | confirmed
  | failed
  deriving DecidableEq

namespace TradeStatus

def fromPolymarketStr : Account.TradeStatus → Option TradeStatus
  | .matched => some .matched
  | .mined => some .mined
  | .confirmed => some .confirmed
  | .failed => some .failed
  | .other => none

def isTerminal : TradeStatus → Bool
  | .confirmed | .failed => true
  | _ => false

def rank : TradeStatus → ℕ
  | .matched => 1
  | .mined => 2
  | .failed => 3
  | .confirmed => 4

def fromOrderStatus : OrderStatus → Option TradeStatus
  | .filled => some .confirmed
  | .partiallyFilled => some .matched
  | .failed => some .failed
  | _ => none

end TradeStatus

structure UpsertResult where
  applied : Bool
  accumulatorSign : ℤ
  deriving DecidableEq

namespace UpsertResult

def noop : UpsertResult := ⟨false, 0⟩
def add : UpsertResult := ⟨true, 1⟩
def reverse : UpsertResult := ⟨true, -1⟩
def updateOnly : UpsertResult := ⟨true, 0⟩

end UpsertResult

structure TradeRecord where
  tradeId : String
  assetId : String
  side : Side
  size : ℚ
  price : ℚ
  status : TradeStatus
  isMaker : Bool
  usdcFee : ℚ
  sharesFee : ℚ
  feeSettlement : FeeSettlement
  feeAttributed : Bool := true
  deriving DecidableEq

structure TradeFeeAttribution where
  applied : Bool
  cashDelta : ℚ
  quantityDelta : ℚ
  deriving DecidableEq

structure PendingOrder where
  clientOrderId : String
  symbol : String
  side : Side
  price : ℚ
  originalQuantity : ℚ
  remainingQuantity : ℚ
  cashFeePerShare : ℚ
  deriving DecidableEq

/-- The fields of `RestoredTrade` that the ledger reads. -/
structure RestoredTrade where
  feeAttributed : Bool
  feeSettlement : FeeSettlement
  ownership : Account.TradeOwnership
  booked : Bool
  usdcFee : ℚ
  sharesFee : ℚ
  isMaker : Bool

/-- Tolerance of a fee next to a size. -/
def feeTolerance (size : ℚ) : ℚ := max (1 / 10 ^ 10) (|size| * (1 / 10 ^ 8))

/-- Tolerance of a repeated price or fee. -/
def fineTolerance (x : ℚ) : ℚ := max (1 / 10 ^ 10) (|x| * (1 / 10 ^ 8))

/-- Tolerance of a repeated size. -/
def sizeTolerance (x : ℚ) : ℚ := max (1 / 10 ^ 8) (|x| * (1 / 10 ^ 8))

namespace TradeRecord

variable (t : TradeRecord)

/-- Cash that the trade moves while it is live. -/
def cash : ℚ :=
  match t.side with
  | .buy => -t.size * t.price - t.usdcFee
  | .sell => t.size * t.price - t.usdcFee

/-- Tokens that the trade moves while it is live. -/
def quantity : ℚ :=
  match t.side with
  | .buy => t.size - t.sharesFee
  | .sell => -t.size

/-- The amounts of a trade make sense. -/
def ValidAmounts : Prop :=
  0 < t.size ∧ 0 < t.price ∧ t.price ≤ 1 + 1 / 10 ^ 8 ∧ 0 ≤ t.usdcFee ∧ 0 ≤ t.sharesFee

instance : Decidable t.ValidAmounts := inferInstanceAs (Decidable (_ ∧ _))

/-- The fees are in the currency that the settlement accepts. -/
def AcceptsFees (tolerance : ℚ) : Prop :=
  t.feeSettlement.acceptsFeeAmounts t.side t.isMaker t.usdcFee t.sharesFee tolerance = true

instance (tolerance : ℚ) : Decidable (t.AcceptsFees tolerance) :=
  inferInstanceAs (Decidable (_ = _))

/-- A push repeats the terms of the recorded trade. -/
def Agrees (push : TradeRecord) : Prop :=
  t.assetId = push.assetId ∧ t.side = push.side ∧ t.isMaker = push.isMaker ∧
    t.feeSettlement = push.feeSettlement ∧ |t.size - push.size| ≤ sizeTolerance t.size ∧
    |t.price - push.price| ≤ fineTolerance t.price ∧
    |t.usdcFee - push.usdcFee| ≤ fineTolerance t.usdcFee ∧
    |t.sharesFee - push.sharesFee| ≤ fineTolerance t.sharesFee

instance (push : TradeRecord) : Decidable (t.Agrees push) := inferInstanceAs (Decidable (_ ∧ _))

end TradeRecord

def validPendingOrderFields (clientOrderId symbol : String) (price quantity : ℚ) : Bool :=
  !isBlank clientOrderId && !isBlank symbol && 0 < price && 0 < quantity

/-! ## Running sums -/

structure TradeSum where
  sum : ℚ := 0
  correction : ℚ := 0
  deriving DecidableEq

namespace TradeSum

def add (s : TradeSum) (value : ℚ) : TradeSum :=
  let next := s.sum + value
  { sum := next
    correction := s.correction +
      if |value| ≤ |s.sum| then (s.sum - next) + value else (value - next) + s.sum }

def value (s : TradeSum) : ℚ := s.sum + s.correction

end TradeSum

structure SymbolTradeTotals where
  quantity : TradeSum := {}
  availableQuantity : TradeSum := {}
  lockedSellQuantity : TradeSum := {}

structure IncrementalQueries where
  cash : TradeSum := {}
  availableCash : TradeSum := {}
  lockedBuyCash : TradeSum := {}
  symbols : AList fun _ : String => SymbolTradeTotals := ∅

/-- Whether a status counts as live, as a factor. -/
def liveFactor (status : Option TradeStatus) : ℚ := if status.any (· ≠ .failed) then 1 else 0

/-- Whether a status counts as confirmed, as a factor. -/
def confirmedFactor (status : Option TradeStatus) : ℚ := if status = some .confirmed then 1 else 0

namespace IncrementalQueries

variable (q : IncrementalQueries)

/-- Totals of a symbol; a symbol without an entry has none. -/
def totals (symbol : String) : SymbolTradeTotals := (q.symbols.lookup symbol).getD {}

/-- Change the totals of a symbol. -/
def modifyTotals (symbol : String) (f : SymbolTradeTotals → SymbolTradeTotals) :
    IncrementalQueries :=
  { q with symbols := q.symbols.insert symbol (f (q.totals symbol)) }

def reservation (order : PendingOrder) (sign : ℚ) : IncrementalQueries :=
  match order.side with
  | .buy =>
    let locked := sign * (order.price + order.cashFeePerShare) * order.remainingQuantity
    { q with lockedBuyCash := q.lockedBuyCash.add locked }
  | .sell => q.modifyTotals order.symbol fun totals =>
    { totals with
      lockedSellQuantity := totals.lockedSellQuantity.add (sign * order.remainingQuantity) }

def transition (trade : TradeRecord) (previous : Option TradeStatus) : IncrementalQueries :=
  let liveDelta := liveFactor (some trade.status) - liveFactor previous
  let confirmedDelta := confirmedFactor (some trade.status) - confirmedFactor previous
  if liveDelta = 0 ∧ confirmedDelta = 0 then q
  else
    -- Proceeds and purchases become available when they are confirmed.
    let cashDelta := if trade.side = .buy then liveDelta else confirmedDelta
    let quantityDelta := if trade.side = .buy then confirmedDelta else liveDelta
    let moved : IncrementalQueries :=
      { q with
        cash := q.cash.add (trade.cash * liveDelta)
        availableCash := q.availableCash.add (trade.cash * cashDelta) }
    moved.modifyTotals trade.assetId fun totals =>
      { totals with
        quantity := totals.quantity.add (trade.quantity * liveDelta)
        availableQuantity := totals.availableQuantity.add (trade.quantity * quantityDelta) }

/-- The index part of `attribute_restored_trade_fee` for a live trade; `none` if the symbol has no
entry. -/
def bindFee (trade : TradeRecord) (cashDelta quantityDelta : ℚ) : Option IncrementalQueries :=
  if trade.assetId ∈ q.symbols then
    let moved : IncrementalQueries :=
      { q with
        cash := q.cash.add cashDelta
        availableCash := if trade.side = .buy ∨ trade.status = .confirmed then
          q.availableCash.add cashDelta else q.availableCash }
    some (moved.modifyTotals trade.assetId fun totals =>
      { totals with
        quantity := totals.quantity.add quantityDelta
        availableQuantity := if trade.side = .sell ∨ trade.status = .confirmed then
          totals.availableQuantity.add quantityDelta else totals.availableQuantity })
  else none

/-- Give a symbol an entry. -/
def touch (symbol : String) : IncrementalQueries :=
  if symbol ∈ q.symbols then q else { q with symbols := q.symbols.insert symbol {} }

end IncrementalQueries

/-! ## The manager -/

structure PositionManager where
  initBalance : ℚ := 0
  initPositions : AList fun _ : String => ℚ := ∅
  trades : AList fun _ : String => TradeRecord := ∅
  pendingOrders : AList fun _ : String => PendingOrder := ∅
  syntheticCounter : ℕ := 0
  makerVolume : ℚ := 0
  takerVolume : ℚ := 0
  incrementalQueries : Option IncrementalQueries := none

/-- Lifecycle rules of `upsert_trade`. -/
def upsertOutcome : Option TradeStatus → TradeStatus → UpsertResult
  | some .failed, .confirmed => .add
  | none, .failed => .updateOnly
  | none, _ => .add
  | some previous, status =>
    if previous.isTerminal then .noop
    else if status.rank ≤ previous.rank then .noop
    else if status = .failed then .reverse
    else .updateOnly

/-- The row that a push leaves: a known trade keeps its first terms and takes the new status. -/
def bookedRow (existing : Option TradeRecord) (push : TradeRecord) : TradeRecord :=
  match existing with
  | some row => { row with status := push.status }
  | none => { push with feeAttributed := true }

/-- The row of a trade with the fee of a restored row bound to it. -/
def TradeRecord.withFee (trade : TradeRecord) (row : RestoredTrade) : TradeRecord :=
  { trade with
    usdcFee := row.usdcFee
    sharesFee := row.sharesFee
    feeSettlement := row.feeSettlement
    feeAttributed := true }

namespace PositionManager

variable (m : PositionManager)

def new : PositionManager := {}

def withInitialQuantities (initial : AList fun _ : String => ℚ) (balance : ℚ) : PositionManager :=
  { initBalance := balance, initPositions := initial }

def initialQuantity (symbol : String) : ℚ := (m.initPositions.lookup symbol).getD 0

def enableIncrementalQueries : PositionManager :=
  match m.incrementalQueries with
  | some _ => m
  | none =>
    let queries : IncrementalQueries :=
      m.initPositions.keys.foldl IncrementalQueries.touch {}
    let queries := m.trades.entries.foldl (fun q e => q.transition e.2 none) queries
    let queries := m.pendingOrders.entries.foldl (fun q e => q.reservation e.2 1) queries
    { m with incrementalQueries := some queries }

/-! ### Trades -/

/-- Write the row of a trade and let the index follow. -/
def writeTrade (key : String) (trade : TradeRecord) (previous : Option TradeStatus) :
    PositionManager :=
  { m with
    trades := m.trades.insert key trade
    incrementalQueries := m.incrementalQueries.map (·.transition trade previous) }

/-- Add a signed notional to the volume of a role. -/
def addVolume (isMaker : Bool) (notional : ℚ) : PositionManager :=
  if isMaker then { m with makerVolume := m.makerVolume + notional }
  else { m with takerVolume := m.takerVolume + notional }

lemma trades_written (key : String) (t : TradeRecord) (previous : Option TradeStatus)
    (isMaker : Bool) (notional : ℚ) :
    ((m.writeTrade key t previous).addVolume isMaker notional).trades = m.trades.insert key t := by
  unfold addVolume
  split <;> rfl

/-- `upsert_trade_inner`. The push is given as the row that a new trade gets. -/
def upsertTrade (push : TradeRecord) : PositionManager × UpsertResult :=
  if isBlank push.tradeId ∨ isBlank push.assetId ∨ ¬push.ValidAmounts ∨
      ¬push.AcceptsFees (feeTolerance push.size) then (m, .noop)
  else
    let existing := m.trades.lookup push.tradeId
    if ∃ row ∈ existing, ¬row.Agrees push then (m, .noop)
    else
      let outcome := upsertOutcome (existing.map (·.status)) push.status
      if ¬outcome.applied then (m, .noop)
      else
        let m := m.writeTrade push.tradeId (bookedRow existing push) (existing.map (·.status))
        (m.addVolume push.isMaker (push.size * push.price * outcome.accumulatorSign), outcome)

/-- The index after a fee is bound to a trade; `none` if a live trade has no entry in it. -/
def bindFeeQueries (trade : TradeRecord) (cashDelta quantityDelta : ℚ) :
    Option (Option IncrementalQueries) :=
  match m.incrementalQueries with
  | none => some none
  | some q =>
    if trade.status = .failed then some (some q)
    else (q.bindFee trade cashDelta quantityDelta).map some

def attributeRestoredTradeFee (row : RestoredTrade) :
    PositionManager × Except String TradeFeeAttribution :=
  match m.trades.lookup row.ownership.tradeKey with
  | none => (m, .error "fee attribution requires an existing trade")
  | some trade =>
    let tolerance := feeTolerance trade.size
    if ¬row.feeAttributed ∨ trade.assetId ≠ row.ownership.tokenId ∨
        trade.side ≠ row.ownership.side ∨ trade.isMaker ≠ row.isMaker ∨
        tolerance < |trade.size - row.ownership.quantity| ∨
        fineTolerance trade.price < |trade.price - row.ownership.price| ∨
        ¬row.feeSettlement.acceptsFeeAmounts row.ownership.side row.isMaker row.usdcFee
          row.sharesFee tolerance then
      (m, .error "fee attribution has unresolved or conflicting trade provenance")
    else if trade.feeAttributed then
      if trade.feeSettlement ≠ row.feeSettlement ∨ tolerance < |trade.usdcFee - row.usdcFee| ∨
          tolerance < |trade.sharesFee - row.sharesFee| then
        (m, .error "cannot reprice an attributed trade")
      else (m, .ok ⟨false, 0, 0⟩)
    else
      let cashDelta := if trade.status ≠ .failed then trade.usdcFee - row.usdcFee else 0
      let quantityDelta := if trade.status ≠ .failed then trade.sharesFee - row.sharesFee else 0
      match m.bindFeeQueries trade cashDelta quantityDelta with
      | none => (m, .error "fee attribution is missing its incremental symbol index")
      | some queries =>
        ({ m with
          incrementalQueries := queries
          trades := m.trades.insert row.ownership.tradeKey (trade.withFee row) },
          .ok ⟨true, cashDelta, quantityDelta⟩)

/-! ### Open orders -/

/-- Write the row of an open order, and move its reservation in the index. -/
def replacePending (coid : String) (old new : PendingOrder) : PositionManager :=
  { m with
    pendingOrders := m.pendingOrders.insert coid new
    incrementalQueries :=
      m.incrementalQueries.map fun q => (q.reservation old (-1)).reservation new 1 }

def removePendingOrder (coid : String) : PositionManager :=
  match m.pendingOrders.lookup coid with
  | none => m
  | some order =>
    { m with
      pendingOrders := m.pendingOrders.erase coid
      incrementalQueries := m.incrementalQueries.map fun q => q.reservation order (-1) }

def registerPendingOrderWithCashFee (coid symbol : String) (side : Side)
    (price quantity cashFeePerShare : ℚ) : PositionManager :=
  if cashFeePerShare < 0 ∨ (side = .sell ∧ cashFeePerShare ≠ 0) then m
  else if !validPendingOrderFields coid symbol price quantity then m
  else
    let m := m.removePendingOrder coid
    let order : PendingOrder := ⟨coid, symbol, side, price, quantity, quantity, cashFeePerShare⟩
    { m with
      pendingOrders := m.pendingOrders.insert coid order
      incrementalQueries := m.incrementalQueries.map fun q => q.reservation order 1 }

def registerPendingOrder (coid symbol : String) (side : Side) (price quantity : ℚ) :
    PositionManager :=
  m.registerPendingOrderWithCashFee coid symbol side price quantity 0

def applyPrivateTradeReservation (coid : String) (quantity : ℚ) (sign : ℤ) :
    PositionManager × Bool :=
  if coid = "" ∨ quantity ≤ 0 ∨ ¬(sign = 1 ∨ sign = -1) then (m, false)
  else match m.pendingOrders.lookup coid with
    | none => (m, false)
    | some order =>
      let remaining := if sign = 1 then max (order.remainingQuantity - quantity) 0
        else min (order.remainingQuantity + quantity) order.originalQuantity
      (m.replacePending coid order { order with remainingQuantity := remaining }, true)

def syncPendingFromUpdate (u : OrderUpdate) : PositionManager :=
  let coid := u.clientOrderId
  if coid = "" then m
  else match u.status with
    | .partiallyFilled =>
      match m.pendingOrders.lookup coid with
      | none => m
      | some order =>
        let remaining := max (order.remainingQuantity - u.filledQuantity) 0
        let m := m.replacePending coid order { order with remainingQuantity := remaining }
        if remaining ≤ 0 then { m with pendingOrders := m.pendingOrders.erase coid } else m
    | .filled =>
      -- A match without its trades keeps the lock until the trades arrive.
      if u.filledQuantity ≤ 0 ∧ u.tradeId.all (· = "") ∧ ¬u.hasOrderAudit then m
      else m.removePendingOrder coid
    | .failed | .cancelled | .rejected => m.removePendingOrder coid
    | .accepted =>
      if coid ∉ m.pendingOrders ∧
          validPendingOrderFields coid u.symbol u.avgFillPrice u.remainingQuantity then
        m.registerPendingOrder coid u.symbol u.side u.avgFillPrice u.remainingQuantity
      else m
    | _ => m

/-- The trade id that an update is booked under, and the counter for ids that are made up. -/
def updateTradeId (u : OrderUpdate) : String × ℕ :=
  match u.tradeId.filter (· ≠ "") with
  | some tradeId => (tradeId, m.syntheticCounter)
  | none =>
    let counter := m.syntheticCounter + 1
    (s!"synth-{u.clientOrderId}-{counter}", counter)

def onOrderUpdate (u : OrderUpdate) : PositionManager :=
  match TradeStatus.fromOrderStatus u.status with
  | none => m.syncPendingFromUpdate u
  | some status =>
    if u.filledQuantity ≤ 0 then m.syncPendingFromUpdate u
    else match u.liquidity with
      | none => m
      | some liquidity =>
        let m := m.syncPendingFromUpdate u
        let (tradeId, counter) := m.updateTradeId u
        let push : TradeRecord :=
          { tradeId := tradeId, assetId := u.symbol, side := u.side, size := u.filledQuantity
            price := u.avgFillPrice, status := status, isMaker := liquidity = .maker, usdcFee := 0
            sharesFee := 0, feeSettlement := .legacyV1 }
        ({ m with syntheticCounter := counter }.upsertTrade push).1

/-! ### Adjustments -/

def adjustBalance (delta : ℚ) : PositionManager := { m with initBalance := m.initBalance + delta }

variable (symbol : String)

def adjustQuantity (delta : ℚ) : PositionManager :=
  { m with
    initPositions := m.initPositions.insert symbol (m.initialQuantity symbol + delta)
    incrementalQueries := m.incrementalQueries.map fun q => q.touch symbol }

/-! ### Queries -/

def balance : ℚ :=
  match m.incrementalQueries with
  | some q => m.initBalance + q.cash.value
  | none => m.trades.entries.foldl (fun b e =>
      if e.2.status = .failed then b
      else match e.2.side with
        | .buy => b - (e.2.size * e.2.price + e.2.usdcFee)
        | .sell => b + (e.2.size * e.2.price - e.2.usdcFee)) m.initBalance

def getQuantity : ℚ :=
  match m.incrementalQueries with
  | some q => m.initialQuantity symbol + (q.totals symbol).quantity.value
  | none => m.trades.entries.foldl (fun b e =>
      if e.2.status = .failed ∨ e.2.assetId ≠ symbol then b
      else match e.2.side with
        | .buy => b + (e.2.size - e.2.sharesFee)
        | .sell => b - e.2.size) (m.initialQuantity symbol)

def lockedBuyCost : ℚ :=
  match m.incrementalQueries with
  | some q => max q.lockedBuyCash.value 0
  | none => ((m.pendingOrders.entries.filter fun e => e.2.side = .buy).map fun e =>
      (e.2.price + e.2.cashFeePerShare) * e.2.remainingQuantity).sum

def lockedSellQty : ℚ :=
  match m.incrementalQueries with
  | some q => max (q.totals symbol).lockedSellQuantity.value 0
  | none => ((m.pendingOrders.entries.filter fun e => e.2.side = .sell && e.2.symbol = symbol).map
      fun e => e.2.remainingQuantity).sum

def availableCash : ℚ :=
  match m.incrementalQueries with
  | some q => max (m.initBalance + q.availableCash.value - m.lockedBuyCost) 0
  | none =>
    let b := m.trades.entries.foldl (fun b e =>
      if e.2.status = .failed then b
      else match e.2.side with
        | .buy => b - (e.2.size * e.2.price + e.2.usdcFee)
        | .sell => if e.2.status = .confirmed then b + (e.2.size * e.2.price - e.2.usdcFee) else b)
      m.initBalance
    max (b - m.lockedBuyCost) 0

def availableInventory : ℚ :=
  match m.incrementalQueries with
  | some q =>
    max (m.initialQuantity symbol + (q.totals symbol).availableQuantity.value -
      m.lockedSellQty symbol) 0
  | none =>
    let b := m.trades.entries.foldl (fun b e =>
      if e.2.status = .failed ∨ e.2.assetId ≠ symbol then b
      else match e.2.side with
        | .buy => if e.2.status = .confirmed then b + (e.2.size - e.2.sharesFee) else b
        | .sell => b - e.2.size) (m.initialQuantity symbol)
    max (b - m.lockedSellQty symbol) 0

end PositionManager

/-! ## Mutations -/

/-- The public mutations of a manager. -/
inductive Mutation
  | enableIncrementalQueries
  | upsertTrade (push : TradeRecord)
  | attributeRestoredTradeFee (row : RestoredTrade)
  | onOrderUpdate (u : OrderUpdate)
  | syncPendingFromUpdate (u : OrderUpdate)
  | registerPendingOrder (coid symbol : String) (side : Side) (price quantity cashFeePerShare : ℚ)
  | applyPrivateTradeReservation (coid : String) (quantity : ℚ) (sign : ℤ)
  | removePendingOrder (coid : String)
  | adjustBalance (delta : ℚ)
  | adjustQuantity (symbol : String) (delta : ℚ)

/-- What a mutation returns. -/
inductive Reply
  | unit
  | upsert (result : UpsertResult)
  | attribution (result : Except String TradeFeeAttribution)
  | reservation (applied : Bool)

/-- Run a mutation. -/
def Mutation.run (m : PositionManager) : Mutation → PositionManager × Reply
  | .enableIncrementalQueries => (m.enableIncrementalQueries, .unit)
  | .upsertTrade push => ((m.upsertTrade push).1, .upsert (m.upsertTrade push).2)
  | .attributeRestoredTradeFee row =>
    ((m.attributeRestoredTradeFee row).1, .attribution (m.attributeRestoredTradeFee row).2)
  | .onOrderUpdate u => (m.onOrderUpdate u, .unit)
  | .syncPendingFromUpdate u => (m.syncPendingFromUpdate u, .unit)
  | .registerPendingOrder coid symbol side price quantity cashFeePerShare =>
    (m.registerPendingOrderWithCashFee coid symbol side price quantity cashFeePerShare, .unit)
  | .applyPrivateTradeReservation coid quantity sign =>
    ((m.applyPrivateTradeReservation coid quantity sign).1,
      .reservation (m.applyPrivateTradeReservation coid quantity sign).2)
  | .removePendingOrder coid => (m.removePendingOrder coid, .unit)
  | .adjustBalance delta => (m.adjustBalance delta, .unit)
  | .adjustQuantity symbol delta => (m.adjustQuantity symbol delta, .unit)

/-- The manager after a run. -/
def PositionManager.runAll (m : PositionManager) (ops : List Mutation) : PositionManager :=
  ops.foldl (fun m op => (op.run m).1) m

end Position

end HexAgent
