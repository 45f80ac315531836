import HexAgent.Account.Economics
import HexAgent.ToMathlib.AListRows

/-!
# Cold account transactions

A cold transaction copies the shards into the account-wide state, changes that state, and publishes
it back. Between the copy and the publication the lifecycle owner keeps serving calls on the shard.
The publication therefore first merges what happened there: orders that were admitted meanwhile are
added to the state, and rows named by the journal of recent mutations are taken from the shard.

The loop over all instances runs `publishInstance` for one instance after the other.
-/

namespace HexAgent.Account

/-- Ledger of one instance in the account-wide state. -/
structure InstanceLedger where
  cash : ℚ
  positions : AList fun _ : String => ℚ
  reservedCash : ℚ
  reservedPositions : AList fun _ : String => ℚ

/-- The account-wide state. -/
structure SharedAccountState where
  instances : AList fun _ : String => InstanceLedger
  orders : AList fun _ : String => OrderOwnership
  oidToCoid : AList fun _ : String => String
  trades : AList fun _ : String => AppliedTrade
  recoveryPendingOrders : Finset String
  startupQueryRepairOrders : Finset String
  routineCancelAudits : Finset String
  feeAttributionPending : Finset String
  -- the orders of the `order_cancel_audit:` anomalies
  orderCancelAudits : Finset String
  ledgerGeneration : ℕ

/-- The state before any instance is known. -/
def SharedAccountState.initial : SharedAccountState where
  instances := ∅
  orders := ∅
  oidToCoid := ∅
  trades := ∅
  recoveryPendingOrders := ∅
  startupQueryRepairOrders := ∅
  routineCancelAudits := ∅
  feeAttributionPending := ∅
  orderCancelAudits := ∅
  ledgerGeneration := 0

/-! ## The copy -/

def VirtualAccount.ledgerSnapshot (a : VirtualAccount) : InstanceLedger where
  cash := a.cash
  positions := ⟨a.positions.entries.map fun e => ⟨e.1, e.2.balance⟩, by
    simpa [List.NodupKeys, List.keys, Function.comp_def] using a.positions.nodupKeys⟩
  reservedCash := a.reservedCash
  reservedPositions := ⟨a.positions.entries.map fun e => ⟨e.1, e.2.reserved⟩, by
    simpa [List.NodupKeys, List.keys, Function.comp_def] using a.positions.nodupKeys⟩

namespace SharedAccountState

variable (state : SharedAccountState)

/-- `sync_virtual_account_to_state`: replace what the state knows of an instance by its shard. The
generation counter of the lifecycle owner is passed in. -/
def snapshotInstance (a : VirtualAccount) (ledgerGeneration : ℕ) : SharedAccountState :=
  let owned := (a.orders.keys ++
    (state.orders.filterRows fun _ order => order.instanceId == a.instanceId).keys).toFinset
  let orders := (state.orders.filterRows fun _ order => order.instanceId != a.instanceId)
  let orders := AList.copyRows a.orders.keys a.orders orders
  let trades := (state.trades.filterRows fun _ trade => trade.ownership.instanceId != a.instanceId)
  let trades := AList.copyRows a.trades.keys a.trades trades
  { instances := state.instances.insert a.instanceId a.ledgerSnapshot
    orders := orders
    oidToCoid := orders.entries.foldl (fun m e => m.insert (normalizeOrderId e.2.orderId) e.1) ∅
    trades := trades
    recoveryPendingOrders := (state.recoveryPendingOrders \ owned) ∪ a.recoveryPendingOrders
    startupQueryRepairOrders :=
      (state.startupQueryRepairOrders \ owned) ∪ a.startupQueryRepairOrders
    routineCancelAudits := (state.routineCancelAudits \ owned) ∪ a.routineCancelAudits
    feeAttributionPending := (state.feeAttributionPending.filter fun key =>
      (trades.lookup key).all (·.ownership.instanceId != a.instanceId)) ∪ a.feeAttributionPending
    orderCancelAudits := state.orderCancelAudits
    ledgerGeneration := max state.ledgerGeneration ledgerGeneration }

/-- Replace the ledger of an instance. -/
def setLedger (instanceId : String) (ledger : InstanceLedger) : SharedAccountState :=
  { state with instances := state.instances.insert instanceId ledger }

end SharedAccountState

/-- `release_order_reservation_locked`: what a cold transaction does when an order is filled. -/
def SharedAccountState.releaseOrderReservationLocked (state : SharedAccountState) (coid : String) :
    SharedAccountState :=
  match state.orders.lookup coid with
  | none => state
  | some order =>
    let released := { state with
      orders := state.orders.insert coid { order with reservedCash := 0, reservedQuantity := 0 } }
    match state.instances.lookup order.instanceId with
    | none => released
    | some ledger =>
      released.setLedger order.instanceId { ledger with
        reservedCash := max (ledger.reservedCash - order.reservedCash) 0
        reservedPositions :=
          if 0 < order.reservedQuantity then
            ledger.reservedPositions.insert order.tokenId (max
              ((ledger.reservedPositions.lookup order.tokenId).getD 0 - order.reservedQuantity) 0)
          else ledger.reservedPositions }

/-! ## Merged reservations -/

variable (tol : Tolerance)

/-- Add the reservation of an order to a ledger. -/
def InstanceLedger.reserve (ledger : InstanceLedger) (order : OrderOwnership) : InstanceLedger :=
  { ledger with
    reservedCash := ledger.reservedCash + order.reservedCash
    reservedPositions :=
      if tol.eps < order.reservedQuantity then
        ledger.reservedPositions.insert order.tokenId
          ((ledger.reservedPositions.lookup order.tokenId).getD 0 + order.reservedQuantity)
      else ledger.reservedPositions }

/-- Orders of a shard that the state does not have. -/
def missingOrders (state : SharedAccountState) (a : VirtualAccount) : List OrderOwnership :=
  (a.orders.filterRows fun coid _ => (state.orders.lookup coid).isNone).entries.map Sigma.snd

def mergeConcurrentReservations (state : SharedAccountState) (a : VirtualAccount)
    (observedEpoch : Option ℕ) : SharedAccountState :=
  if observedEpoch.all (· == a.reservationEpoch) then state
  else
    match state.instances.lookup a.instanceId with
    | none => state
    | some ledger =>
      let missing := missingOrders state a
      let ledger := missing.foldl (InstanceLedger.reserve tol) ledger
      { state.setLedger a.instanceId ledger with
        oidToCoid := missing.foldl
          (fun m order => m.insert (normalizeOrderId order.orderId) order.clientOrderId)
          state.oidToCoid
        orders := missing.foldl (fun m order => m.insert order.clientOrderId order) state.orders }

/-! ## Merged trade mutations -/

/-- Rows and tokens that a merge takes from the shard. -/
structure TouchedKeys where
  coids : List String
  tradeKeys : List String
  tokens : List String

variable (a : VirtualAccount)

/-- Keys of the mutations after an observed epoch. If the journal no longer holds all of them, the
whole shard counts as touched. -/
def touchedKeys (observedEpoch : ℕ) : TouchedKeys :=
  let hints := a.recentTradeMutations.filter fun hint => decide (observedEpoch < hint.epoch)
  let complete := (hints.head?.any fun hint => hint.epoch == observedEpoch + 1) &&
    hints.getLast?.any fun hint => hint.epoch == a.tradeEpoch
  if complete then
    ⟨(hints.map (·.clientOrderId)).dedup, (hints.map (·.tradeKey)).dedup,
      (hints.map (·.tokenId)).dedup⟩
  else ⟨a.orders.keys, a.trades.keys, a.positions.keys⟩

/-- `add_economic_state`, for one instance. -/
def addEconomicState (target delta : EconomicBalance) (scale : ℚ) : EconomicBalance where
  cash := target.cash + delta.cash * scale
  positions token := target.positions token + delta.positions token * scale

/-- Effect of a trade on an instance; only its owner is affected. -/
def tradeEffectOn (instanceId : String) (trade : AppliedTrade) : EconomicBalance :=
  if trade.ownership.instanceId = instanceId then tradeEconomicEffect trade else ⟨0, fun _ => 0⟩

/-- Change of the effects of the touched trades between the state and the shard. -/
def concurrentEconomics (instanceId : String) (keys : List String)
    (cold hot : AList fun _ : String => AppliedTrade) : EconomicBalance :=
  keys.foldl (fun total key =>
    let total := (cold.lookup key).elim total fun trade =>
      addEconomicState total (tradeEffectOn instanceId trade) (-1)
    (hot.lookup key).elim total fun trade =>
      addEconomicState total (tradeEffectOn instanceId trade) 1) ⟨0, fun _ => 0⟩

/-- Move the balance of a token by the change of effects, and take its reservation from the
shard. -/
def InstanceLedger.takeToken (delta : EconomicBalance)
    (ledger : InstanceLedger) (token : String) : InstanceLedger :=
  match a.positions.lookup token with
  | none => ledger
  | some quota =>
    { ledger with
      positions := ledger.positions.insert token
        ((ledger.positions.lookup token).getD 0 + delta.positions token)
      reservedPositions := ledger.reservedPositions.insert token quota.reserved }

/-- The ledger after a merge: balances move by the change of effects, but the reservations of cash
and of the touched tokens are those of the shard. -/
def InstanceLedger.merge (ledger : InstanceLedger) (a : VirtualAccount) (tokens : List String)
    (delta : EconomicBalance) : InstanceLedger :=
  tokens.foldl (InstanceLedger.takeToken a delta)
    { ledger with cash := ledger.cash + delta.cash, reservedCash := a.reservedCash }

/-- Copy the membership of one key. -/
def copyMark (src : Finset String) (marks : Finset String) (key : String) : Finset String :=
  if key ∈ src then insert key marks else marks.erase key

/-- Take one order from the shard. -/
def SharedAccountState.takeOrder (state : SharedAccountState) (coid : String) :
    SharedAccountState :=
  let stale := (state.orders.lookup coid).bind fun previous =>
    let oid := normalizeOrderId previous.orderId
    if state.oidToCoid.lookup oid = some coid then some oid else none
  let oidToCoid := stale.elim state.oidToCoid fun oid => state.oidToCoid.erase oid
  { state with
    oidToCoid := (a.orders.lookup coid).elim oidToCoid fun order =>
      oidToCoid.insert (normalizeOrderId order.orderId) order.clientOrderId
    orders := state.orders.put coid (a.orders.lookup coid)
    recoveryPendingOrders := copyMark a.recoveryPendingOrders state.recoveryPendingOrders coid
    routineCancelAudits := copyMark a.routineCancelAudits state.routineCancelAudits coid }

/-- Take one trade from the shard. -/
def SharedAccountState.takeTrade (state : SharedAccountState) (key : String) : SharedAccountState :=
  { state with
    trades := state.trades.put key (a.trades.lookup key)
    feeAttributionPending := copyMark a.feeAttributionPending state.feeAttributionPending key }

/-- Forget the mutations that are part of the state now. -/
def VirtualAccount.dropHints : VirtualAccount :=
  { a with recentTradeMutations :=
      a.recentTradeMutations.dropWhile fun hint => decide (hint.epoch ≤ a.tradeEpoch) }

/-- The largest generation of a trade row, if it is larger than the given one. -/
def VirtualAccount.latestGeneration (generation : ℕ) : ℕ :=
  a.trades.entries.foldl (fun generation e => max generation e.2.ledgerGeneration) generation

def mergeConcurrentTradeMutations (state : SharedAccountState) (a : VirtualAccount) :
    Option ℕ → SharedAccountState × VirtualAccount
  | none => (state, a)
  | some observedEpoch =>
    if observedEpoch = a.tradeEpoch then (state, a.dropHints)
    else
      let touched := touchedKeys a observedEpoch
      let delta := concurrentEconomics a.instanceId touched.tradeKeys state.trades a.trades
      let state := (state.instances.lookup a.instanceId).elim state fun ledger =>
        state.setLedger a.instanceId (ledger.merge a touched.tokens delta)
      let state := touched.coids.foldl (SharedAccountState.takeOrder a) state
      let state := touched.tradeKeys.foldl (SharedAccountState.takeTrade a) state
      ({ state with ledgerGeneration := a.latestGeneration state.ledgerGeneration }, a.dropHints)

/-! ## The publication -/

def VirtualAccount.replaceLedger (ledger : InstanceLedger) : VirtualAccount :=
  { a with
    cash := ledger.cash
    reservedCash := ledger.reservedCash
    positions := (ledger.positions.keys ++ ledger.reservedPositions.keys).foldl
      (fun positions token =>
        if (positions.lookup token).isSome then positions
        else positions.insert token ⟨(ledger.positions.lookup token).getD 0,
          (ledger.reservedPositions.lookup token).getD 0⟩) ∅ }

/-- Replace the rows and marks of a shard by those that the state has of its instance. -/
def VirtualAccount.replaceRows (state : SharedAccountState) : VirtualAccount :=
  let orders := state.orders.filterRows fun _ order => order.instanceId == a.instanceId
  let trades := state.trades.filterRows fun _ trade => trade.ownership.instanceId == a.instanceId
  { a with
    orders := orders
    trades := trades
    recoveryPendingOrders := state.recoveryPendingOrders.filter fun coid => coid ∈ orders.keys
    startupQueryRepairOrders := state.startupQueryRepairOrders.filter fun coid => coid ∈ orders.keys
    routineCancelAudits := state.routineCancelAudits.filter fun coid => coid ∈ orders.keys
    feeAttributionPending := state.feeAttributionPending.filter fun key => key ∈ trades.keys
    cancelAuditAnomalies := state.orderCancelAudits.filter fun coid => coid ∈ orders.keys }

/-- Merge and publish one instance. -/
def publishInstance (state : SharedAccountState) (a : VirtualAccount)
    (reservationEpoch tradeEpoch : Option ℕ) : SharedAccountState × VirtualAccount :=
  let reserved := mergeConcurrentReservations tol state a reservationEpoch
  let merged := mergeConcurrentTradeMutations reserved a tradeEpoch
  let a := (merged.1.instances.lookup a.instanceId).elim merged.2 merged.2.replaceLedger
  (merged.1, a.replaceRows merged.1)

def syncStateToVirtualAccount (state : SharedAccountState) (a : VirtualAccount)
    (reservationEpoch tradeEpoch : Option ℕ) : SharedAccountState × VirtualAccount :=
  if (state.instances.lookup a.instanceId).isNone then (state, a)
  else publishInstance tol state a reservationEpoch tradeEpoch

/-- `sync_state_to_virtual_accounts`, for the shards of the account with the epochs that were
observed when they were copied. -/
def syncStateToVirtualAccounts (state : SharedAccountState) :
    List (VirtualAccount × Option ℕ × Option ℕ) → SharedAccountState × List VirtualAccount
  | [] => (state, [])
  | (a, reservationEpoch, tradeEpoch) :: accounts =>
    let published := publishInstance tol state a reservationEpoch tradeEpoch
    let rest := syncStateToVirtualAccounts published.1 accounts
    (rest.1, published.2 :: rest.2)

end HexAgent.Account
