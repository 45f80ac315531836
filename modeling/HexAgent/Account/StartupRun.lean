import HexAgent.Account.StartupTrades

/-!
# Lifecycle runs and the startup check

The lifecycle operations do not keep the rows acceptable on every path. A late fill of a released
order and a bare `Cancelled` mark both leave rows that the next start refuses
(`late_fill_is_refused`). What every operation needs is stated on the state it starts from,
`LifecycleOp.Agrees`; a run whose operations all meet it never leaves the accepted states
(`accepted_run`).
-/

namespace HexAgent.Account

variable {tombstones : List RetiredTradeOwnershipTombstone} {N : Numerics}

/-- The condition under which an operation keeps the startup check satisfied. -/
def LifecycleOp.Agrees (N : Numerics) (tombstones : List RetiredTradeOwnershipTombstone)
    (s : AccountState) : LifecycleOp → Prop
  | .environment _ => True
  | .reserveOrder r _ =>
    s.UnusedId tombstones (r.ownership s.registry.accountId orderSlotUnassigned)
  | .registerPreparedOrder o => s.UnusedId tombstones o
  | .backfillOrderOwnership o =>
    (s.account.orders.lookup o.clientOrderId = none → s.isFreshlyPrepared N o = true) ∧
      s.UnusedId tombstones o
  | .rebindOrderId coid orderId => s.AtOrder coid fun _ order =>
    -- the pruned trades of the order are found under the new hash too
    retiredQuantity tombstones coid { order with orderId := orderId } =
      retiredQuantity tombstones coid order
  | .markOrderStatus coid status allow => s.AtOrder coid fun v order =>
    markIsStale order.status status allow = true ∨ v.KeepsSide order (v.released status)
  | .markFilledPendingAudit coid => s.AtOrder coid fun v order =>
    v.KeepsSide order (!(s.account.fillAuditPending N coid order || v.recovery))
  | .authoritativeAudit _ _ _ | .zeroFillRecovery _ | .inferNullCancellation _ => True
  | .confirmRecoveryCancellation expected => s.AtOrder expected.clientOrderId fun v order =>
    s.account.cancelAckSuperseded expected.clientOrderId order = true ∨ v.KeepsSide order false
  | .markCancelledPendingTradeAudit coid sizeMatched => s.AtOrder coid fun v order =>
    Priced order ∧
      -- a refused size still ends the routine audit
      (sizeAuditRefused N.tol order sizeMatched = true →
        v.KeepsSide order ({ v with routine := false }.released order.status))
  | .markCancelledPendingAudit coid => s.AtOrder coid fun v order =>
    s.account.cancelAckSuperseded coid order = true ∨ v.KeepsSide order false
  | .releaseOrder coid status => s.AtOrder coid fun v order =>
    -- a release does not end recovery
    (terminalStatus status = true ∧ v.recovery = false) ∨ desiredOrderReservation order = (0, 0)
  | .trade e => s.TradeAgrees N e

namespace AccountState

open VirtualAccount

variable {s : AccountState}

/-- One operation that agrees with the check keeps the shard accepted. -/
lemma accepted_step (htol : N.tol = .exact) (hs : s.account.Accepted tombstones)
    {op : LifecycleOp} (hop : op.Agrees N tombstones s) :
    (s.step N op).account.Accepted tombstones := by
  have heps : N.tol.eps = 0 := by rw [htol]; rfl
  cases op with
  | environment registry => exact hs
  | reserveOrder req allow =>
    refine reserveOrder_rule hs fun a hqty _ _ hnone ha => ?_
    refine accepted_newRow hs hop hnone ?_ rfl rfl (reserved_request hqty)
    have hview : a.orderView = s.account.orderView :=
      tryReserve_rule (P := fun c => c.orderView = s.account.orderView) ha
        (fun _ => orderView_congr rfl) fun _ _ hc => (orderView_setPosition _).trans hc
    rw [orderView_bumpReservationEpoch, orderView_setOrder, hview]
    rfl
  | registerPreparedOrder owned =>
    refine registerPreparedOrder_rule hs fun hfresh _ hnone => ?_
    obtain ⟨hst, hfill, hrsv⟩ := isFreshlyPrepared_spec heps hfresh
    refine accepted_newRow hs hop hnone ?_ hst hfill hrsv
    rw [orderView_bumpReservationEpoch, orderView_adjustReservation, orderView_setOrder]
  | backfillOrderOwnership owned =>
    refine backfillOrderOwnership_rule hs fun _ hnone => ?_
    obtain ⟨hst, hfill, hrsv⟩ := isFreshlyPrepared_spec heps (hop.1 hnone)
    refine accepted_newRow hs hop.2 hnone ?_ hst hfill hrsv
    exact .trans (orderView_congr rfl) (orderView_setOrder owned.clientOrderId)
  | rebindOrderId coid oid =>
    refine rebindOrderId_rule hs fun order howns hget => ?_
    refine hs.update coid (by rw [orderView_record, orderView_setOrder]) ?_
    exact (hs coid).restate hget rfl rfl (hop order howns hget) rfl rfl rfl rfl (.inl rfl)
  | markOrderStatus coid status allow =>
    refine withOrder_rule hs fun order howns hget => ?_
    split
    · exact hs
    next hstale =>
    refine hs.update coid (by rw [orderView_record, orderView_setOrder]) ?_
    have hside := (hop order howns hget).resolve_left hstale
    exact (hs coid).restate hget rfl rfl rfl rfl rfl rfl rfl hside
  | markFilledPendingAudit coid => exact accepted_markFilledPendingAudit hs hop
  | authoritativeAudit coid status audit =>
    exact accepted_authoritativeAudit hs
  | zeroFillRecovery expected => exact accepted_authoritativeAudit hs
  | inferNullCancellation expected => exact accepted_inferNullCancellation hs
  | confirmRecoveryCancellation expected =>
    refine withOrder_rule hs fun order howns hget => ?_
    split
    · exact hs
    split
    · exact hs
    · exact accepted_cancelledPendingAudit hs hget (hop order howns hget)
  | markCancelledPendingTradeAudit coid matched =>
    exact accepted_markCancelledPendingTradeAudit hs heps hop
  | markCancelledPendingAudit coid =>
    exact withOrder_rule hs fun order howns hget =>
      accepted_cancelledPendingAudit hs hget (hop order howns hget)
  | releaseOrder coid status => exact accepted_releaseOrder hs hop
  | trade edge => exact accepted_applyTradeTransition htol hs hop

/-- From a state that the startup check accepts, a run whose operations all agree with the check
reaches only states that it accepts. -/
theorem accepted_run {s' : AccountState} {ops : List LifecycleOp} (htol : N.tol = .exact)
    (hrun : Trace (fun s op s' => op.Agrees N tombstones s ∧ s.step N op = s') s ops s')
    (hs : (s.account.deriveReservationAggregates .exact tombstones).isOk = true) :
    (s'.account.deriveReservationAggregates .exact tombstones).isOk = true := by
  rw [isOk_derive_iff] at hs ⊢
  refine hrun.invariant (P := fun s => s.account.Accepted tombstones) ?_ hs
  rintro s op _ hs ⟨hop, rfl⟩
  exact accepted_step htol hs hop

/-- A fill is booked and fails, the order is released as cancelled, and a late fill takes all of
it. -/
theorem accepted_run_late_fill : let N := Numerics.clamped .exact fun x _ => x
    let fill := fun key status qty =>
      LifecycleOp.trade ⟨key, status, "c1", "0xa1", "token", .buy, qty, 1 / 2, none⟩
    let s := (seeded "account" "maker" 100 []).run N [
      .reserveOrder ⟨"maker", "c1", "0xA1", "token", .buy, 10, 1 / 2, 0⟩ false,
      fill "t1" .matched 4, fill "t1" .failed 4, .releaseOrder "c1" .cancelled,
      fill "t2" .matched 10]
    (s.account.deriveReservationAggregates .exact []).isOk = true := by
  intro N fill s
  let s₀ := seeded "account" "maker" 100 []
  let reserve := LifecycleOp.reserveOrder
    ⟨"maker", "c1", "0xA1", "token", .buy, 10, 1 / 2, 0⟩ false
  have hres : reserve.Agrees N [] s₀ := fun _ => by decide +kernel
  have hrel : (LifecycleOp.releaseOrder "c1" .cancelled).Agrees N []
      (s₀.run N [reserve, fill "t1" .matched 4, fill "t1" .failed 4]) :=
    fun _ _ _ => .inl ⟨rfl, by decide +kernel⟩
  -- The order that a fill finds meets the condition.
  have hfill s key status qty (h : (s.account.orders.lookup "c1").all (fun order =>
      s.account.SettlementAgrees ⟨key, status, "c1", "0xa1", "token", .buy, qty, 1 / 2, none⟩ "c1"
        order) = true) : (fill key status qty).Agrees N [] s := by
    intro price order existing hacc _
    have hord : s.account.orders.lookup "c1" = some order := hacc.order_eq
    rw [hord] at h
    exact of_decide_eq_true h
  have hrun : Trace (fun s op s' => op.Agrees N [] s ∧ s.step N op = s') s₀ [reserve,
      fill "t1" .matched 4, fill "t1" .failed 4, .releaseOrder "c1" .cancelled,
      fill "t2" .matched 10] s :=
    .cons ⟨hres, rfl⟩ (.cons ⟨hfill _ _ _ _ (by decide +kernel), rfl⟩
      (.cons ⟨hfill _ _ _ _ (by decide +kernel), rfl⟩ (.cons ⟨hrel, rfl⟩
        (.cons ⟨hfill _ _ _ _ (by decide +kernel), rfl⟩ (.nil _)))))
  exact accepted_run rfl hrun (by decide +kernel)

/-- A fill that arrives after the order was released as cancelled, and a bare `Cancelled` mark,
leave ledgers that the next start refuses. -/
theorem late_fill_is_refused : let N := Numerics.clamped .exact fun x _ => x
    let s := seeded "account" "maker" 100 []
    let reserve :=
      LifecycleOp.reserveOrder ⟨"maker", "c1", "0xA1", "token", .buy, 10, 1 / 2, 0⟩ false
    let fill := LifecycleOp.trade ⟨"t1", .matched, "c1", "0xa1", "token", .buy, 4, 1 / 2, none⟩
    let accepts := fun ops : List LifecycleOp =>
      ((s.run N ops).account.deriveReservationAggregates .exact []).isOk
    accepts [reserve] = true ∧ accepts [reserve, .releaseOrder "c1" .cancelled] = true ∧
      accepts [reserve, .releaseOrder "c1" .cancelled, fill] = false ∧
      accepts [reserve, .markOrderStatus "c1" .cancelled false] = false := by
  decide +kernel

end AccountState

end HexAgent.Account
