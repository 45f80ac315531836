import HexAgent.Account.Run
import Mathlib.Logic.Function.Basic

/-!
# The startup check of reservations

Before an account goes live, `derive_reservation_aggregates` re-derives from the durable rows what
every order should reserve and refuses a ledger whose rows disagree: the filled quantity of an
order must be the quantity of its booked trades, and its reservation must be zero once the order is
terminal and in no recovery or cancel audit, and the open quantity otherwise.

What the check reads of the shard is collected per client order id in an `OrderView`, and every
update of the shard changes at most one view.
-/

namespace HexAgent.Account

open Function

variable {order : OrderOwnership}

/-- Retained proof of a pruned trade. -/
structure RetiredTradeOwnershipTombstone where
  ownership : TradeOwnership
  -- the trade was never booked by this ledger
  authenticatedTerminalNoop : Bool
  deriving DecidableEq

def tradeOwnershipMatchesOrderRoot (ownership : TradeOwnership) (order : OrderOwnership) : Bool :=
  decide (ownership.accountId = order.accountId ∧ ownership.instanceId = order.instanceId ∧
    ownership.clientOrderId = order.clientOrderId ∧
    normalizeOrderId ownership.orderId = normalizeOrderId order.orderId ∧
    ownership.tokenId = order.tokenId ∧ ownership.side = order.side)

variable (tombstones : List RetiredTradeOwnershipTombstone)

/-- Quantity of an order that confirmed and pruned trades prove. -/
def retiredQuantity (coid : String) (order : OrderOwnership) : ℚ :=
  (tombstones.map fun tombstone =>
    if !tombstone.authenticatedTerminalNoop && tombstone.ownership.status == .confirmed &&
        tombstone.ownership.clientOrderId == coid &&
        tradeOwnershipMatchesOrderRoot tombstone.ownership order then
      tombstone.ownership.quantity
    else 0).sum

/-- Quantity that a trade row books for a client order id. -/
def AppliedTrade.bookedFor (trade : AppliedTrade) (coid : String) : ℚ :=
  if trade.booked && !trade.failed && trade.ownership.clientOrderId == coid then
    trade.ownership.quantity
  else 0

/-- The statuses after which nothing may stay reserved. -/
def terminalStatus (status : OrderStatus) : Bool :=
  status matches .cancelled | .rejected | .filled

/-- What the check reads for one client order id. -/
structure OrderView where
  row : Option OrderOwnership
  recovery : Bool
  routine : Bool
  -- sum of the booked trades that did not fail
  booked : ℚ

namespace OrderView

/-- The order would be terminal, and in no audit, with the given status. -/
def released (v : OrderView) (status : OrderStatus) : Bool :=
  terminalStatus status && !v.recovery && !v.routine

/-- What the check expects an order to reserve. -/
def expected (v : OrderView) (order : OrderOwnership) : ℚ × ℚ :=
  if v.released order.status then (0, 0) else desiredOrderReservation order

end OrderView

/-- Why a ledger is refused at startup. -/
inductive ReservationMismatch
  | filledQuantity (coid : String) (filled booked : ℚ)
  | reservation (coid : String) (stored expected : ℚ × ℚ)
  deriving DecidableEq

/-- Reservations re-derived from the order rows of one instance. -/
structure DerivedReservationAggregates where
  orderCash : ℚ
  orderPositions : AList fun _ : String => ℚ

namespace VirtualAccount

/-- Quantity of the booked trades of a client order id. -/
def bookedQuantity (a : VirtualAccount) (coid : String) : ℚ :=
  a.trades.sumBy fun _ trade => trade.bookedFor coid

/-- What the check reads of the shard for one client order id. -/
def orderView (a : VirtualAccount) (coid : String) : OrderView where
  row := a.orders.lookup coid
  recovery := decide (coid ∈ a.recoveryPendingOrders)
  routine := decide (coid ∈ a.routineCancelAudits)
  booked := a.bookedQuantity coid

end VirtualAccount

/-- The check of one order row, with the reservation it derives. -/
def checkOrder (tol : Tolerance) (tombstones : List RetiredTradeOwnershipTombstone) (coid : String)
    (v : OrderView) (order : OrderOwnership) : Except ReservationMismatch (ℚ × ℚ) :=
  let booked := v.booked + retiredQuantity tombstones coid order
  let tolerance := max (tol.reconciliation booked order.filledQuantity)
    (max |order.quantity| 1 * tol.relative)
  if tolerance < |booked - order.filledQuantity| then
    .error (.filledQuantity coid order.filledQuantity booked)
  else
    let expected := v.expected order
    if tol.reconciliation expected.1 order.reservedCash < |expected.1 - order.reservedCash| ∨
        tol.reconciliation expected.2 order.reservedQuantity <
          |expected.2 - order.reservedQuantity| then
      .error (.reservation coid (order.reservedCash, order.reservedQuantity) expected)
    else .ok expected

/-- Add the reservation derived for one order. -/
def DerivedReservationAggregates.addOrder (derived : DerivedReservationAggregates) (token : String)
    (expected : ℚ × ℚ) : DerivedReservationAggregates where
  orderCash := derived.orderCash + expected.1
  orderPositions :=
    if 0 < expected.2 then
      derived.orderPositions.insert token
        ((derived.orderPositions.lookup token).getD 0 + expected.2)
    else derived.orderPositions

/-- `derive_reservation_aggregates`, for the rows of one instance. -/
def VirtualAccount.deriveReservationAggregates (tol : Tolerance)
    (tombstones : List RetiredTradeOwnershipTombstone) (a : VirtualAccount) :
    Except ReservationMismatch DerivedReservationAggregates :=
  a.orders.entries.foldlM (fun derived e => do
    let expected ← checkOrder tol tombstones e.1 (a.orderView e.1) e.2
    pure (derived.addOrder e.2.tokenId expected)) ⟨0, ∅⟩

/-! ## Acceptance over exact rationals -/

/-- The row of an order is what the check expects. -/
def OrderView.Accepted (coid : String) (v : OrderView) : Prop :=
  ∀ order, v.row = some order →
    v.booked + retiredQuantity tombstones coid order = order.filledQuantity ∧
      (order.reservedCash, order.reservedQuantity) = v.expected order

/-- Every order row is what the check expects. -/
def VirtualAccount.Accepted (a : VirtualAccount) : Prop :=
  ∀ coid, (a.orderView coid).Accepted tombstones coid

variable {v : OrderView}

section Check

variable {tombstones} {a : VirtualAccount}

lemma checkOrder_isOk_iff {coid : String} :
    (∃ expected, checkOrder .exact tombstones coid v order = .ok expected) ↔
      v.booked + retiredQuantity tombstones coid order = order.filledQuantity ∧
        (order.reservedCash, order.reservedQuantity) = v.expected order := by
  have hpos (x y : ℚ) : 0 < |x - y| ↔ x ≠ y := by rw [abs_pos, sub_ne_zero]
  have hpair : (order.reservedCash, order.reservedQuantity) = v.expected order ↔
      ¬((v.expected order).1 ≠ order.reservedCash ∨
        (v.expected order).2 ≠ order.reservedQuantity) := by
    rw [Prod.ext_iff, not_or, not_not, not_not, eq_comm, @eq_comm _ order.reservedQuantity]
  simp only [checkOrder, Tolerance.reconciliation, Tolerance.exact, mul_zero, add_zero, max_self,
    hpos, hpair]
  split
  · next hbook => simp [hbook]
  next hbook =>
  rw [not_not] at hbook
  split
  · next hrsv => simp [hrsv]
  · next hrsv => simp [hbook, hrsv]

/-- A fold that checks every element before it adds it succeeds if every check does. -/
lemma foldlM_isOk_iff {α β γ ε : Type} (check : α → Except ε γ) (add : β → α → γ → β)
    (l : List α) (b : β) :
    (∃ b', l.foldlM (fun b x => do let r ← check x; pure (add b x r)) b = .ok b') ↔
      ∀ x ∈ l, ∃ r, check x = .ok r := by
  induction l generalizing b with
  | nil => simp [pure, Except.pure]
  | cons x l ih =>
    cases hx : check x with
    | error e => simp [List.foldlM_cons, hx, bind, Except.bind]
    | ok r =>
      simp only [List.foldlM_cons, hx, bind, Except.bind, pure, Except.pure, List.forall_mem_cons,
        Except.ok.injEq, exists_eq', true_and]
      exact ih (add b x r)

/-- With exact comparisons the check accepts exactly the ledgers whose rows are as expected. -/
lemma deriveReservationAggregates_isOk_iff :
    (∃ derived, a.deriveReservationAggregates .exact tombstones = .ok derived) ↔
      a.Accepted tombstones := by
  refine (foldlM_isOk_iff
    (fun e : Σ _ : String, OrderOwnership =>
      checkOrder .exact tombstones e.1 (a.orderView e.1) e.2)
    (fun (derived : DerivedReservationAggregates) e expected =>
      derived.addOrder e.2.tokenId expected) _ _).trans ?_
  simp only [checkOrder_isOk_iff]
  constructor
  · intro h coid order hord
    exact h ⟨coid, order⟩ (AList.mem_entries_iff.2 hord)
  · intro h e he
    exact h e.1 e.2 (AList.mem_entries_iff.1 he)

lemma isOk_derive_iff :
    (a.deriveReservationAggregates .exact tombstones).isOk = true ↔ a.Accepted tombstones := by
  rw [← deriveReservationAggregates_isOk_iff]
  cases a.deriveReservationAggregates .exact tombstones <;> simp [Except.isOk, Except.toBool]

end Check

/-! ## How the updates act on the views -/

namespace VirtualAccount

variable {tombstones} (key coid token : String) (pending : Bool) (delta : ℚ) {a b : VirtualAccount}
  {N : Numerics}

lemma orderView_congr (h : (b.orders, b.trades, b.recoveryPendingOrders, b.routineCancelAudits) =
    (a.orders, a.trades, a.recoveryPendingOrders, a.routineCancelAudits)) :
    b.orderView = a.orderView := by
  simp only [Prod.mk.injEq] at h
  funext coid
  simp only [orderView, bookedQuantity, h]

@[simp] lemma orderView_clearStartupRepair : (a.clearStartupRepair coid).orderView = a.orderView :=
  orderView_congr rfl

@[simp] lemma orderView_setCancelAuditAnomaly (present : Bool) :
    (a.setCancelAuditAnomaly coid present).orderView = a.orderView :=
  orderView_congr rfl

@[simp] lemma orderView_setFeePending : (a.setFeePending key pending).orderView = a.orderView :=
  orderView_congr rfl

@[simp] lemma orderView_bumpReservationEpoch : a.bumpReservationEpoch.orderView = a.orderView :=
  orderView_congr rfl

@[simp] lemma orderView_record (tradeKey coid token : String) :
    (a.recordVirtualTradeMutation tradeKey coid token).orderView = a.orderView :=
  orderView_congr rfl

@[simp] lemma orderView_addCash : (a.addCash N delta).orderView = a.orderView :=
  orderView_congr rfl

@[simp] lemma orderView_setPosition {quota : VirtualPositionQuota} :
    (a.setPosition token quota).orderView = a.orderView :=
  orderView_congr rfl

@[simp] lemma orderView_addPosition : (a.addPosition N token delta).orderView = a.orderView :=
  orderView_congr rfl

@[simp] lemma orderView_adjustReservation (cashDelta delta : ℚ) :
    (a.adjustReservation N token cashDelta delta).orderView = a.orderView := by
  unfold adjustReservation adjustReservedPosition adjustReservedCash
  split <;> split <;> exact orderView_congr rfl

@[simp] lemma orderView_moveFee (fee : ℚ × ℚ) (move : FeeMove) :
    (a.moveFee N token fee move).orderView = a.orderView := by
  unfold moveFee
  split <;> simp

@[simp] lemma orderView_movePrincipal (e : TradeEdge) (price : ℚ) (move : TradeMove) :
    (a.movePrincipal N e price move).orderView = a.orderView := by
  unfold movePrincipal
  split <;> simp

@[simp] lemma orderView_setOrder :
    (a.setOrder coid order).orderView =
      update a.orderView coid { a.orderView coid with row := some order } := by
  funext other
  by_cases h : other = coid
  · subst h
    rw [update_self, orderView, setOrder, AList.lookup_insert]
    rfl
  · rw [update_of_ne h, orderView, setOrder, AList.lookup_insert_ne h]
    rfl

@[simp] lemma orderView_rewriteOrder {old new : OrderOwnership} :
    (a.rewriteOrder N coid old new).orderView =
      update a.orderView coid { a.orderView coid with row := some new } := by
  rw [rewriteOrder, orderView_adjustReservation, orderView_setOrder]

@[simp] lemma orderView_setRecovery :
    (a.setRecovery coid pending).orderView =
      update a.orderView coid { a.orderView coid with recovery := pending } := by
  funext other
  by_cases h : other = coid
  · subst h
    cases pending <;> simp [orderView, setRecovery, bookedQuantity]
  · cases pending <;> simp [orderView, setRecovery, bookedQuantity, h]

@[simp] lemma orderView_setRoutineAudit :
    (a.setRoutineAudit coid pending).orderView =
      update a.orderView coid { a.orderView coid with routine := pending } := by
  funext other
  by_cases h : other = coid
  · subst h
    cases pending <;> simp [orderView, setRoutineAudit, bookedQuantity]
  · cases pending <;> simp [orderView, setRoutineAudit, bookedQuantity, h]

/-- Booked quantity after a trade row was written. -/
lemma bookedQuantity_setTrade (trade : AppliedTrade) (coid : String) :
    (a.setTrade key trade).bookedQuantity coid = a.bookedQuantity coid + (trade.bookedFor coid -
      (a.trades.lookup key).elim 0 fun old => old.bookedFor coid) :=
  AList.sumBy_insert _ _ _ _

/-- A trade row that books the same changes no view. -/
lemma orderView_setTrade {key : String} {old trade : AppliedTrade}
    (hold : a.trades.lookup key = some old) (h : trade.bookedFor = old.bookedFor) :
    (a.setTrade key trade).orderView = a.orderView := by
  funext coid
  have hbook := bookedQuantity_setTrade (a := a) key trade coid
  rw [hold, Option.elim_some, h, sub_self, add_zero] at hbook
  rw [orderView, hbook]
  rfl

/-- An account is accepted if only one view changed and that one is accepted. -/
lemma Accepted.update (h : a.Accepted tombstones) (coid : String)
    (hview : b.orderView = update a.orderView coid v) (hv : v.Accepted tombstones coid) :
    b.Accepted tombstones := by
  intro other
  rw [hview]
  by_cases heq : other = coid
  · subst heq
    rwa [update_self]
  · rw [update_of_ne heq]
    exact h other

lemma Accepted.congr (h : a.Accepted tombstones) (hview : b.orderView = a.orderView) :
    b.Accepted tombstones := by
  intro coid
  rw [hview]
  exact h coid

end VirtualAccount

end HexAgent.Account
