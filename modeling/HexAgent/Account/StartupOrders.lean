import HexAgent.Account.StartupCheck
import HexAgent.Account.Reservation

/-!
# Order operations and the startup check

The check expects a *released* order, terminal and in no audit, to reserve nothing and every other
order to reserve its open quantity. An operation that moves an order with open quantity from one
side to the other has to rewrite its reservation. The operations that do not rewrite it, or rewrite
it without looking at the side, keep the shard accepted only if the order stays on its side or has
nothing open (`OrderView.KeepsSide`). The audits and the inferred cancellation need no condition.
-/

namespace HexAgent.Account

open Function Option OrderView OrderRequest

variable {tombstones : List RetiredTradeOwnershipTombstone} {N : Numerics}

/-! ## Accepted rows -/

namespace OrderView

variable {v w : OrderView} {coid : String} {order new : OrderOwnership}

/-- A row that reserves its open quantity is accepted unless it is released with some. -/
lemma accepted_of_desired (hrow : v.row = some new)
    (hfill : v.booked + retiredQuantity tombstones coid new = new.filledQuantity)
    (hrsv : (new.reservedCash, new.reservedQuantity) = desiredOrderReservation new)
    (hside : v.released new.status = true → desiredOrderReservation new = (0, 0)) :
    v.Accepted tombstones coid := by
  intro o ho
  rw [hrow, some_inj] at ho
  subst ho
  refine ⟨hfill, ?_⟩
  rw [hrsv, expected]
  split
  · next h => rw [hside h]
  · rfl

/-- A row that reserves nothing is accepted if it is released or has nothing open. -/
lemma accepted_of_zero (hrow : v.row = some new)
    (hfill : v.booked + retiredQuantity tombstones coid new = new.filledQuantity)
    (hrsv : (new.reservedCash, new.reservedQuantity) = (0, 0))
    (hside : v.released new.status = true ∨ desiredOrderReservation new = (0, 0)) :
    v.Accepted tombstones coid := by
  intro o ho
  rw [hrow, some_inj] at ho
  subst ho
  refine ⟨hfill, ?_⟩
  rw [hrsv, expected]
  split
  · rfl
  · next h => exact (hside.resolve_left h).symm

/-- A row whose reservation is kept is accepted if it stays on its side or has nothing open. -/
lemma Accepted.restate (h : v.Accepted tombstones coid) (hrow : v.row = some order)
    (hnew : w.row = some new) (hbook : w.booked = v.booked)
    (hret : retiredQuantity tombstones coid new = retiredQuantity tombstones coid order)
    (hfill : new.filledQuantity = order.filledQuantity)
    (hcash : new.reservedCash = order.reservedCash)
    (hqty : new.reservedQuantity = order.reservedQuantity)
    (hdes : desiredOrderReservation new = desiredOrderReservation order)
    (hside : w.released new.status = v.released order.status ∨
      desiredOrderReservation order = (0, 0)) : w.Accepted tombstones coid := by
  obtain ⟨hsum, hrsv⟩ := h order hrow
  intro o ho
  rw [hnew, some_inj] at ho
  subst ho
  refine ⟨by rw [hbook, hret, hsum, hfill], ?_⟩
  rw [hcash, hqty, hrsv, expected, expected, hdes]
  rcases hside with hside | hside
  · rw [hside]
  · rw [hside, ite_self, ite_self]

end OrderView

/-! ## Orders -/

/-- An operation that keeps the reservation leaves the order on its side of the check, or nothing
of the order is open. -/
def OrderView.KeepsSide (v : OrderView) (order : OrderOwnership) (releasedAfter : Bool) : Prop :=
  releasedAfter = v.released order.status ∨ desiredOrderReservation order = (0, 0)

namespace VirtualAccount

variable {a : VirtualAccount} {coid : String} {order : OrderOwnership}

lemma orderView_release (hget : a.orders.lookup coid = some order) :
    (a.releaseVirtualOrderReservation N coid).orderView = update a.orderView coid
      { a.orderView coid with row := some (order.withReservation (0, 0)) } := by
  unfold releaseVirtualOrderReservation
  rw [hget]
  exact orderView_rewriteOrder coid

/-- An audited row is released when the audit is complete and recovers its open quantity
otherwise. -/
lemma Accepted.applyAudit (h : a.Accepted tombstones) (hget : a.orders.lookup coid = some order)
    {audited : OrderOwnership}
    (hret : retiredQuantity tombstones coid audited = retiredQuantity tombstones coid order)
    (hfill : audited.filledQuantity = order.filledQuantity)
    (hrsv : (audited.reservedCash, audited.reservedQuantity) = desiredOrderReservation audited)
    (hterm : terminalStatus audited.status = true) :
    (a.applyAudit N coid order audited).2.Accepted tombstones := by
  have hsum := (h coid order hget).1
  unfold VirtualAccount.applyAudit
  dsimp only
  generalize hb : (a.rewriteOrder N coid order audited).setRoutineAudit coid false = b
  have hview : b.orderView = Function.update a.orderView coid
      { a.orderView coid with row := some audited, routine := false } := by
    rw [← hb, orderView_setRoutineAudit, orderView_rewriteOrder, update_self, update_idem]
  have hrow : b.orders.lookup coid = some audited := by
    have := congrArg (fun views => (views coid).row) hview
    rwa [update_self] at this
  split
  · -- The order is terminal and leaves both audits.
    refine h.update coid (v := { a.orderView coid with
      row := some (audited.withReservation (0, 0)), routine := false, recovery := false }) ?_ ?_
    · simp [orderView_release hrow, hview]
    · refine accepted_of_zero rfl ?_ rfl (.inl ?_)
      · show (a.orderView coid).booked + retiredQuantity tombstones coid audited = _
        rw [hret, hsum]
        exact hfill.symm
      · show (terminalStatus audited.status && !false && !false) = true
        rw [hterm]
        rfl
  · refine h.update coid (v := { a.orderView coid with
      row := some audited, routine := false, recovery := true }) ?_ ?_
    · simp [hview]
    · refine accepted_of_desired rfl ?_ hrsv fun hrel => ?_
      · rw [hret, hsum, hfill]
      · simp [released] at hrel

end VirtualAccount

namespace AccountState

open VirtualAccount

variable {s : AccountState}

variable {coid : String} {a : VirtualAccount} {order : OrderOwnership}

/-- A condition on the order row that an operation reaches. -/
def AtOrder (s : AccountState) (coid : String) (P : OrderView → OrderOwnership → Prop) : Prop :=
  ∀ order, s.ownsCoid coid = true → s.account.orders.lookup coid = some order →
    P (s.account.orderView coid) order

lemma accepted_cancelledPendingAudit (ha : a.Accepted tombstones)
    (hget : a.orders.lookup coid = some order)
    (h : a.cancelAckSuperseded coid order = true ∨ (a.orderView coid).KeepsSide order false) :
    (a.cancelledPendingAudit coid order).2.Accepted tombstones := by
  unfold cancelledPendingAudit
  split
  · exact ha
  next hnew =>
  have hside := h.resolve_left hnew
  -- A row that is not superseded has no audited size, so its open quantity does not change.
  have hterm : order.terminalMatchedQuantity = none := by
    unfold cancelAckSuperseded at hnew
    simp only [Bool.or_eq_true, not_or, isSome_iff_ne_none, not_not] at hnew
    exact hnew.1.1.1
  refine ha.update coid (v := { a.orderView coid with
    row := some { order with
      status := .cancelled
      terminalMatchedQuantity := none
      terminalTradeIds := []
      terminalTradeIdsAuthoritative := false }
    recovery := false
    routine := true }) ?_ ?_
  · simp
  · refine (ha coid).restate hget rfl rfl rfl rfl rfl rfl ?_ (hside.imp (fun hside => ?_) id)
    · simp [desiredOrderReservation, hterm, OrderOwnership.reservationCashPerShare]
    · rw [← hside]
      simp [released]

/-- The client order id of a new row has no booked or pruned trades. -/
def UnusedId (tombstones : List RetiredTradeOwnershipTombstone) (s : AccountState)
    (order : OrderOwnership) : Prop :=
  s.account.orders.lookup order.clientOrderId = none →
    s.account.bookedQuantity order.clientOrderId +
      retiredQuantity tombstones order.clientOrderId order = 0

lemma reserved_request {r : OrderRequest} (hqty : 0 < r.quantity) {accountId : String} {slot : ℕ} :
    (r.reserveCash, r.reserveQuantity) =
      desiredOrderReservation (r.ownership accountId slot) := by
  have hrem : max (min r.quantity r.quantity - 0) 0 = r.quantity := by
    rw [min_self, sub_zero, max_eq_left hqty.le]
  cases hside : r.side with
  | buy =>
    simp only [reserveCash, reserveQuantity, desiredOrderReservation,
      ownership, OrderOwnership.reservationCashPerShare, hside, getD_none,
      getD_some, hrem, if_true, reduceCtorEq, if_false, Bool.false_eq_true]
    rw [Prod.mk.injEq]
    exact ⟨by ring, rfl⟩
  | sell =>
    simp only [reserveCash, reserveQuantity, desiredOrderReservation,
      ownership, hside, getD_none, hrem, if_true, reduceCtorEq, if_false,
      Bool.false_eq_true]

/-- What `register_prepared_order` checks before it stores a row. -/
lemma isFreshlyPrepared_spec {o : OrderOwnership}
    (heps : N.tol.eps = 0) (h : s.isFreshlyPrepared N o = true) :
    o.status = .pending ∧ o.filledQuantity = 0 ∧
      (o.reservedCash, o.reservedQuantity) = desiredOrderReservation o := by
  simp only [isFreshlyPrepared, decide_eq_true_eq, heps, abs_nonpos_iff, sub_eq_zero] at h
  obtain ⟨-, -, -, -, hst, hfill, -, -, -, -, -, -, -, hcash, hqty⟩ := h
  exact ⟨hst, hfill, Prod.ext hcash.symm hqty.symm⟩

variable (hs : s.account.Accepted tombstones) {status : OrderStatus}

include hs

lemma accepted_markFilledPendingAudit (h : s.AtOrder coid fun v order =>
      v.KeepsSide order (!(s.account.fillAuditPending N coid order || v.recovery))) :
    (s.markFilledPendingAudit N coid).2.account.Accepted tombstones := by
  refine withOrder_rule hs fun order howns hget => ?_
  have hside := h order howns hget
  -- The audit does not read the status.
  have hpending : (s.account.setOrder coid { order with status := .filled }).fillAuditPending N
      coid order = s.account.fillAuditPending N coid order := by
    unfold fillAuditPending terminalOrderAuditCompleteVirtual
    rw [hget, setOrder, AList.lookup_insert]
    rfl
  dsimp only at hside ⊢
  rw [hpending]
  generalize s.account.fillAuditPending N coid order = pending at hside ⊢
  refine hs.update coid (v := { s.account.orderView coid with
    row := some { order with status := .filled }
    routine := false
    recovery := pending || (s.account.orderView coid).recovery }) ?_ ?_
  · rw [orderView_record]
    cases pending with
    | true =>
      simp
    | false =>
      simp
  · refine (hs coid).restate hget rfl rfl rfl rfl rfl rfl rfl (hside.imp (fun hside => ?_) id)
    rw [← hside]
    simp [released, terminalStatus]

lemma accepted_releaseOrder
    (h : s.AtOrder coid fun v order => (terminalStatus status = true ∧ v.recovery = false) ∨
      desiredOrderReservation order = (0, 0)) :
    (s.releaseOrder N coid status).account.Accepted tombstones := by
  refine withOrder_rule hs fun order howns hget => ?_
  refine hs.update coid (v := { s.account.orderView coid with
    row := some (releasedOrder order status), routine := false }) ?_ ?_
  · simp
  · refine accepted_of_zero rfl (hs coid order hget).1 rfl ?_
    rcases h order howns hget with ⟨hterm, hrcv⟩ | hzero
    · simp [released, releasedOrder, hterm, hrcv]
    · exact .inr hzero

lemma accepted_inferNullCancellation {expected : OrderOwnership} :
    (s.inferNullCancellation N expected).2.account.Accepted tombstones := by
  refine withOrder_rule hs fun order _ hget => ?_
  split
  · exact hs
  split
  · exact hs
  refine hs.update expected.clientOrderId (v := { s.account.orderView expected.clientOrderId with
    row := some (nullCancelledOrder order), routine := false, recovery := false }) ?_ ?_
  · simp
  · exact accepted_of_zero rfl (hs _ order hget).1 rfl (.inr rfl)

lemma accepted_authoritativeAudit
    {audit : AuthoritativeOrderAudit} {expected : Option OrderOwnership} :
    (s.applyAuthoritativeOrderAuditInner N coid status audit expected).2.account.Accepted
      tombstones := by
  refine authoritativeAudit_rule hs fun order matched tradeIds hst hget => ?_
  refine hs.applyAudit hget rfl rfl rfl ?_
  show terminalStatus status = true
  cases status <;> simp_all [auditStatusTerminal, terminalStatus]

lemma accepted_markCancelledPendingTradeAudit (heps : N.tol.eps = 0) {matched : ℚ}
    (h : s.AtOrder coid fun v order =>
      Priced order ∧
        (sizeAuditRefused N.tol order matched = true →
          v.KeepsSide order ({ v with routine := false }.released order.status))) :
    (s.markCancelledPendingTradeAudit N coid matched).2.account.Accepted tombstones := by
  unfold markCancelledPendingTradeAudit
  split
  · exact hs
  next howns =>
  have hcleared : (s.account.setRoutineAudit coid false).orderView = update
      s.account.orderView coid { s.account.orderView coid with routine := false } :=
    orderView_setRoutineAudit coid false
  dsimp only
  split
  · next hnone =>
    exact hs.update coid hcleared fun order hord => absurd (hnone.symm.trans hord) (by simp)
  next order hget =>
  have hget : s.account.orders.lookup coid = some order := hget
  obtain ⟨hpriced, href⟩ := h order (by simpa using howns) hget
  split
  · next hsize =>
    refine hs.update coid (by rw [orderView_setCancelAuditAnomaly, hcleared]) ?_
    exact (hs coid).restate hget hget rfl rfl rfl rfl rfl rfl (href hsize)
  -- The reservation is recomputed, and recovery holds exactly what is still open.
  have hrow : ReservationRow (sizeAuditedOrder order matched) :=
    VirtualAccount.reservationRow_desired hpriced
  rw [heps]
  generalize hpend : (decide (0 < (sizeAuditedOrder order matched).reservedCash) ||
    decide (0 < (sizeAuditedOrder order matched).reservedQuantity)) = pending
  refine hs.update coid (v := { s.account.orderView coid with
    row := some (sizeAuditedOrder order matched), routine := false, recovery := pending }) ?_ ?_
  · simp
  · refine accepted_of_desired rfl (hs coid order hget).1 rfl fun hrel => ?_
    have hnot : pending = false := by
      simp only [released, Bool.and_eq_true] at hrel
      simpa using hrel.1.2
    simp only [hnot, Bool.or_eq_false_iff, decide_eq_false_iff_not, not_lt] at hpend
    exact Prod.ext (le_antisymm hpend.1 hrow.cash) (le_antisymm hpend.2 hrow.quantity)

/-! ## New rows -/

/-- A pending row that reserves its open quantity is accepted under an unused id. -/
lemma accepted_newRow (hunused : s.UnusedId tombstones order)
    (hnone : s.account.orders.lookup order.clientOrderId = none)
    (hview : a.orderView = update s.account.orderView order.clientOrderId
      { s.account.orderView order.clientOrderId with row := some order })
    (hpend : order.status = .pending) (hfill : order.filledQuantity = 0)
    (hrsv : (order.reservedCash, order.reservedQuantity) = desiredOrderReservation order) :
    a.Accepted tombstones := by
  refine hs.update _ hview (accepted_of_desired rfl ?_ hrsv fun hrel => ?_)
  · rw [hfill]
    exact hunused hnone
  · simp [released, terminalStatus, hpend] at hrel

end AccountState

end HexAgent.Account
