import HexAgent.ToMathlib.AListSum
import HexAgent.Types
import Mathlib.Algebra.Order.Ring.Rat
import Mathlib.Data.String.Basic
import Mathlib.Data.Finset.Sort

/-!
# Local orders of one outcome

`OrderManager` tracks the orders that a strategy has placed. Beside the table of orders it keeps two
indexes, of the orders that can be cancelled and of those that may rest on the book, and the set of
cancel requests that wait for the first answer to their placement.

A cancel that would overtake its placement is parked as an intent. It is sent by the update that
proves the placement, see `flushCancelIntent`.

Client order ids come from a counter of the process. Its value is an argument of `Place`, so that
nothing is assumed about what other managers do with it. The sink that signals are handed to may
refuse one and all later ones: `room` is the number of signals that it still takes, or `none`.
-/

namespace HexAgent.Orders

inductive LocalOrderStatus
  | submitted
  | active
  | cancelling
  | rejected
  | cancelled
  | matched
  deriving DecidableEq

/-- A cancel request makes sense. -/
def LocalOrderStatus.cancelable : LocalOrderStatus → Bool
  | .submitted | .active => true
  | _ => false

/-- The order may rest on the book. -/
def LocalOrderStatus.live : LocalOrderStatus → Bool
  | .submitted | .active | .cancelling => true
  | _ => false

structure LocalOrder where
  side : Side
  price : ℚ
  quantity : ℚ
  status : LocalOrderStatus
  -- fills by trade id, so that repeated pushes of a trade count once
  filledByTrade : AList fun _ : String => ℚ

/-- The signals that a manager emits. -/
inductive Signal
  | newOrder (clientOrderId : String) (side : Side) (price quantity : ℚ) (postOnly : Bool)
    (timestampNs : ℕ)
  | cancelOrder (clientOrderId : String) (timestampNs : ℕ)
  deriving DecidableEq

structure OrderManager where
  instanceId : String
  coidPrefix : Bool
  orders : AList fun _ : String => LocalOrder
  cancelableOrderIds : Finset String
  liveOrderIds : Finset String
  cancelIntents : Finset String

inductive DroppedSignalOutcome
  | placeRemoved
  | cancelReverted
  | notTracked
  deriving DecidableEq

/-- `ReconcileAction`, with the value that the counter returns for a placement. -/
inductive ReconcileAction
  | place (counter : ℕ) (side : Side) (price quantity : ℚ) (postOnly : Bool)
  | cancel (clientOrderId : String)

/-! ## Order rows -/

namespace LocalOrder

variable (order : LocalOrder)

/-- Sum of the recorded fills. -/
def cumulative : ℚ := order.filledByTrade.sumBy fun _ quantity => quantity

/-- Missing quantity that still counts as a full fill. -/
def tolerance : ℚ := max (order.quantity * (1 / 100)) (1 / 10 ^ 9)

/-- Record the fill of an update, if it names its trade. -/
def recordFill (u : OrderUpdate) : LocalOrder :=
  match u.tradeId with
  | some tradeId =>
    { order with filledByTrade := order.filledByTrade.insert tradeId u.filledQuantity }
  | none => order

/-- The order is fully matched once the fill of an update is recorded. -/
def FullyFilled (u : OrderUpdate) : Prop :=
  order.quantity - order.tolerance ≤ (order.recordFill u).cumulative ∨
    u.tradeId = none ∧ order.quantity - order.tolerance ≤ u.filledQuantity

instance (order : LocalOrder) (u : OrderUpdate) : Decidable (order.FullyFilled u) :=
  inferInstanceAs (Decidable (_ ∨ _))

/-- What an update does to a row: the new row, or `none` if it is removed, and whether a parked
intent is dropped. -/
def onUpdate (order : LocalOrder) (u : OrderUpdate) : Option LocalOrder × Bool :=
  match u.status with
  | .accepted =>
    -- A late reply does not reopen an order that is being cancelled or is fully matched.
    if order.status = .cancelling ∨ order.status = .matched then (some order, false)
    else (some { order with status := .active }, false)
  | .partiallyFilled => fill
  | .filled =>
    -- A trade push reports one trade; without a trade the whole order is done.
    if u.isTrade then fill else (none, true)
  | .rejected => (some { order with status := .rejected }, true)
  | .failed =>
    if u.isTrade then
      let order :=
        { order with filledByTrade := order.filledByTrade.erase (u.tradeId.getD "") }
      if order.status = .cancelled ∨ order.status = .rejected then (some order, false)
      else if order.quantity - order.tolerance ≤ order.cumulative then
        (some { order with status := .matched }, false)
      else (some { order with status := .active }, false)
    else (none, true)
  | .cancelled => (some { order with status := .cancelled }, true)
  | _ => (some order, false)
where
  /-- A fill of one trade, or of a part of the order. -/
  fill : Option LocalOrder × Bool :=
    let recorded := order.recordFill u
    if order.FullyFilled u then (some { recorded with status := .matched }, true)
    else if order.status = .cancelled then (some recorded, false)
    else (some { recorded with status := .active }, false)

end LocalOrder

/-! ## Operations -/

namespace OrderManager

def new (instanceId : String) (coidPrefix : Bool) : OrderManager where
  instanceId := instanceId
  coidPrefix := coidPrefix
  orders := ∅
  cancelableOrderIds := ∅
  liveOrderIds := ∅
  cancelIntents := ∅

variable (m : OrderManager)

variable (coid : String)

/-- Status of a tracked order. -/
def statusOf : Option LocalOrderStatus :=
  (m.orders.lookup coid).map (·.status)

def nextId (counter : ℕ) : String :=
  if m.coidPrefix ∧ m.instanceId ≠ "" then s!"{m.instanceId}-{counter}" else toString counter

/-- Write or remove the row of an order. -/
def setRow : Option LocalOrder → OrderManager
  | some order => { m with orders := m.orders.insert coid order }
  | none => { m with orders := m.orders.erase coid }

/-- Change the status of a tracked order. -/
def setStatus (status : LocalOrderStatus) : OrderManager :=
  match m.orders.lookup coid with
  | some order => m.setRow coid (some { order with status := status })
  | none => m

/-- Forget a parked intent. -/
def dropIntent : OrderManager :=
  { m with cancelIntents := m.cancelIntents.erase coid }

def reindexOrder : OrderManager :=
  let cancelable := m.cancelableOrderIds.erase coid
  let live := m.liveOrderIds.erase coid
  match m.orders.lookup coid with
  | none => { m with cancelableOrderIds := cancelable, liveOrderIds := live }
  | some order =>
    { m with
      cancelableOrderIds := if order.status.cancelable then insert coid cancelable else cancelable
      liveOrderIds := if order.status.live then insert coid live else live }

def requestCancel (timestampNs : ℕ) : OrderManager × Option Signal :=
  match m.statusOf coid with
  | some .submitted => ({ m with cancelIntents := insert coid m.cancelIntents }, none)
  | some .active =>
    (((m.dropIntent coid).setStatus coid .cancelling).reindexOrder coid,
      some (.cancelOrder coid timestampNs))
  | _ => (m, none)

variable (u : OrderUpdate)

/-- The update proves that the placement exists. -/
def provesPlacement : Bool :=
  u.status = .accepted || u.status = .partiallyFilled || (u.status = .failed && u.isTrade)

def flushCancelIntent : OrderManager × Option Signal :=
  if provesPlacement u ∧ u.clientOrderId ∈ m.cancelIntents then
    let m := m.dropIntent u.clientOrderId
    match m.orders.lookup u.clientOrderId with
    | none => (m, none)
    | some _ =>
      ((m.setStatus u.clientOrderId .cancelling).reindexOrder u.clientOrderId,
        some (.cancelOrder u.clientOrderId u.timestampNs))
  else (m, none)

def onOrderUpdate : OrderManager × Option Signal :=
  match m.orders.lookup u.clientOrderId with
  | none => (m.dropIntent u.clientOrderId, none)
  | some order =>
    let (row, drop) := order.onUpdate u
    let m := m.setRow u.clientOrderId row
    let m := if drop then m.dropIntent u.clientOrderId else m
    let (m, signal) := (m.reindexOrder u.clientOrderId).flushCancelIntent u
    (m.reindexOrder u.clientOrderId, signal)

def onSignalDropped : OrderManager × DroppedSignalOutcome :=
  match m.statusOf coid with
  | some .submitted => (((m.setRow coid none).dropIntent coid).reindexOrder coid, .placeRemoved)
  | some .cancelling => ((m.setStatus coid .active).reindexOrder coid, .cancelReverted)
  | _ => (m.reindexOrder coid, .notTracked)

/-- What an operation with a sink leaves: the manager, the signals that the sink took, the room left
in it, and whether all of them were taken. -/
structure Emitted where
  manager : OrderManager
  signals : List Signal
  room : Option ℕ
  ok : Bool

/-- The loop of `cancel_orders_by_side_with` over the ids taken out of the index. -/
def cancelPending (side : Side) (timestampNs : ℕ) (room : Option ℕ) :
    OrderManager → List String → Emitted
  | m, [] => ⟨m, [], room, true⟩
  | m, coid :: pending =>
    match m.orders.lookup coid with
    | none => cancelPending side timestampNs room m pending
    | some order =>
      let kept := { m with cancelableOrderIds := insert coid m.cancelableOrderIds }
      if order.side ≠ side then cancelPending side timestampNs room kept pending
      else match order.status with
        | .submitted =>
          cancelPending side timestampNs room
            { kept with cancelIntents := insert coid m.cancelIntents } pending
        | .active =>
          let m := (m.dropIntent coid).setStatus coid .cancelling
          if room = some 0 then
            -- The ids that were not visited go back into the index.
            ⟨{ m with cancelableOrderIds := m.cancelableOrderIds ∪ pending.toFinset }, [], room,
              false⟩
          else
            let rest := cancelPending side timestampNs (room.map (· - 1)) m pending
            { rest with signals := .cancelOrder coid timestampNs :: rest.signals }
        | _ => cancelPending side timestampNs room m pending

variable (side : Side)

/-- An order of the side still has to be cancelled. -/
def NeedsCancel : Prop :=
  ∃ coid ∈ m.cancelableOrderIds, ∃ order ∈ m.orders.lookup coid, order.side = side ∧
    (order.status = .active ∨ order.status = .submitted ∧ coid ∉ m.cancelIntents)

instance (m : OrderManager) (side : Side) : Decidable (m.NeedsCancel side) :=
  inferInstanceAs (Decidable (∃ coid ∈ m.cancelableOrderIds, _))

def cancelOrdersBySideWith (timestampNs : ℕ) (room : Option ℕ) : Emitted :=
  if m.NeedsCancel side then
    cancelPending side timestampNs room { m with cancelableOrderIds := ∅ }
      (m.cancelableOrderIds.sort (· ≤ ·))
  else ⟨m, [], room, true⟩

def cancelAllWith (timestampNs : ℕ) (room : Option ℕ) : Emitted :=
  let buys := m.cancelOrdersBySideWith .buy timestampNs room
  if buys.ok then
    let sells := buys.manager.cancelOrdersBySideWith .sell timestampNs buys.room
    { sells with signals := buys.signals ++ sells.signals }
  else buys

variable (actions : List ReconcileAction)

/-- A replacement on the side waits, because a cancel of the batch is parked. -/
def defersPlace (side : Side) : Bool :=
  actions.any fun action => match action with
    | .cancel coid => (m.orders.lookup coid).any fun order =>
        order.side = side && order.status = .submitted
    | .place .. => false

/-- One action of `apply_reconcile_with`. -/
def applyAction (deferBuy deferSell : Bool) (timestampNs : ℕ) (m : OrderManager) :
    ReconcileAction → OrderManager × List Signal
  | .place counter side price quantity postOnly =>
    if (side = .buy ∧ deferBuy) ∨ (side = .sell ∧ deferSell) then (m, [])
    else
      let coid := m.nextId counter
      ((m.setRow coid (some ⟨side, price, quantity, .submitted, ∅⟩)).reindexOrder coid,
        [.newOrder coid side price quantity postOnly timestampNs])
  | .cancel coid =>
    let (m, signal) := m.requestCancel coid timestampNs
    (m, signal.toList)

def applyReconcileWith (timestampNs : ℕ) : OrderManager × List Signal :=
  let deferBuy := m.defersPlace actions .buy
  let deferSell := m.defersPlace actions .sell
  actions.foldl (fun s action =>
    let (m, signals) := applyAction deferBuy deferSell timestampNs s.1 action
    (m, s.2 ++ signals)) (m, [])

def injectOpenOrder (price quantity : ℚ) : OrderManager :=
  (m.setRow coid (some ⟨side, price, quantity, .active, ∅⟩)).reindexOrder coid

end OrderManager

end HexAgent.Orders
