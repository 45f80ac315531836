import HexAgent.Account.Trade
import HexAgent.ToMathlib.Trace

/-!
# Runs of the account lifecycle owner

One `LifecycleOp` is one call that the lifecycle owner serves for an instance, or a change of the
shared tables by another instance or the control plane. `AccountState.step` performs it.
-/

namespace HexAgent.Account

/-- Reserving a request moves the counters of cash and of its token only. -/
lemma VirtualAccount.tryReserve_rule {N : Numerics} {a b : VirtualAccount} {r : OrderRequest}
    {P : VirtualAccount → Prop} (h : a.tryReserve N r = .ok b)
    (hcash : ∀ cash, P { a with reservedCash := cash })
    (hpos : ∀ c, ∀ reserved, P c →
      P (c.setPosition r.tokenId { c.position r.tokenId with reserved := reserved })) : P b := by
  unfold tryReserve at h
  split at h
  · cases h
  next c hc =>
  have hc : P c := by
    unfold tryReserveCash at hc
    split at hc
    · split at hc
      · cases hc
      · cases hc
        exact hcash _
    · cases hc
      exact hcash a.reservedCash
  unfold tryReservePosition at h
  split at h
  · dsimp only at h
    split at h
    · cases h
    · cases h
      exact hpos c _ hc
  · cases h
    exact hc

/-! ## Order operations

An operation that is refused leaves the shard alone; otherwise the rule names what it checked. -/

section Orders

variable {N : Numerics} {s : AccountState} {P : VirtualAccount → Prop} {coid : String}
  {o : OrderOwnership} (hs : P s.account)

include hs

namespace AccountState

lemma withOrder_rule {α : Type} {absent : α} {f : OrderOwnership → α × VirtualAccount}
    (hf : ∀ order, s.ownsCoid coid = true → s.account.orders.lookup coid = some order →
      P (f order).2) : P (s.withOrder coid absent f).2.account := by
  unfold withOrder
  split
  · exact hs
  next howns =>
  split
  · exact hs
  next order hget => exact hf order (by simpa using howns) hget

lemma reserveOrder_rule {r : OrderRequest} {allow : Bool}
    (hnew : ∀ a, 0 < r.quantity → 0 < r.price → r.instanceId = s.account.instanceId →
      s.account.orders.lookup r.clientOrderId = none → s.account.tryReserve N r = .ok a →
      P (a.setOrder r.clientOrderId
        (r.ownership s.registry.accountId orderSlotUnassigned)).bumpReservationEpoch) :
    P (s.reserveOrderWithFeePolicy N r allow).2.account := by
  unfold reserveOrderWithFeePolicy
  split
  · exact hs
  next hval =>
  simp only [not_or, not_le] at hval
  obtain ⟨-, -, -, hqty, hprice⟩ := hval
  split
  · exact hs
  split
  · exact hs
  split
  · exact hs
  next hinst =>
  split
  · split <;> exact hs
  next hnone =>
  split
  · exact hs
  split
  · exact hs
  split
  · exact hs
  next a ha => exact hnew a hqty hprice (not_not.1 hinst) hnone ha

lemma registerPreparedOrder_rule
    (hnew : s.isFreshlyPrepared N o = true → o.instanceId = s.account.instanceId →
      s.account.orders.lookup o.clientOrderId = none →
      P ((s.account.setOrder o.clientOrderId o).adjustReservation N o.tokenId o.reservedCash
        o.reservedQuantity).bumpReservationEpoch) : P (s.registerPreparedOrder N o).2.account := by
  unfold registerPreparedOrder
  split
  · exact hs
  next hfresh =>
  split
  · exact hs
  next hinst =>
  split
  · exact hs
  next hnone =>
  split
  · exact hs
  · exact hnew (by simpa using hfresh) (not_not.1 hinst) hnone

lemma backfillOrderOwnership_rule
    (hnew : o.instanceId = s.account.instanceId →
      s.account.orders.lookup o.clientOrderId = none →
      P ((s.account.setOrder o.clientOrderId o).raiseToMinimum N o.tokenId).bumpReservationEpoch) :
    P (s.backfillOrderOwnership N o).2.account := by
  unfold backfillOrderOwnership
  split
  · exact hs
  split
  · exact hs
  next hinst =>
  dsimp only
  split
  · exact hs
  split
  · exact hs
  split
  · exact hs
  next hnone => exact hnew (not_not.1 hinst) hnone

lemma rebindOrderId_rule {orderId : String}
    (hnew : ∀ order, s.ownsCoid coid = true → s.account.orders.lookup coid = some order →
      P ((s.account.setOrder coid { order with orderId := orderId }).recordVirtualTradeMutation ""
        coid order.tokenId)) : P (s.rebindOrderId coid orderId).2.account := by
  unfold rebindOrderId
  split
  · exact hs
  next hroute =>
  simp only [Bool.not_eq_eq_eq_not, not_or, Bool.not_true, Bool.not_eq_false] at hroute
  split
  · exact hs
  next order hget =>
  dsimp only
  split
  · exact hs
  split
  · exact hs
  · exact hnew order hroute.2.2 hget

lemma authoritativeAudit_rule {status : OrderStatus} {audit : AuthoritativeOrderAudit}
    {expected : Option OrderOwnership}
    (hnew : ∀ order matched tradeIds, auditStatusTerminal status = true →
      s.account.orders.lookup coid = some order →
      P (s.account.applyAudit N coid order (auditedOrder order status matched tradeIds)).2) :
    P (s.applyAuthoritativeOrderAuditInner N coid status audit expected).2.account := by
  unfold applyAuthoritativeOrderAuditInner
  split
  · exact hs
  next hst =>
  split
  · exact hs
  refine withOrder_rule hs fun order _ hget => ?_
  split
  · exact hs
  split
  · exact hs
  · exact hnew order _ _ (by simpa using hst) hget

end AccountState

end Orders

/-- One call of the lifecycle owner. -/
inductive LifecycleOp
  -- other instances and the control plane replace the shared tables
  | environment (registry : Registry)
  | reserveOrder (request : OrderRequest) (allowFeeDegraded : Bool)
  | registerPreparedOrder (ownership : OrderOwnership)
  | backfillOrderOwnership (ownership : OrderOwnership)
  | rebindOrderId (coid orderId : String)
  | markOrderStatus (coid : String) (status : OrderStatus) (allowTerminalResurrection : Bool)
  | markFilledPendingAudit (coid : String)
  | authoritativeAudit (coid : String) (status : OrderStatus) (audit : AuthoritativeOrderAudit)
  | zeroFillRecovery (expected : OrderOwnership)
  | inferNullCancellation (expected : OrderOwnership)
  | confirmRecoveryCancellation (expected : OrderOwnership)
  | markCancelledPendingTradeAudit (coid : String) (sizeMatched : ℚ)
  | markCancelledPendingAudit (coid : String)
  | releaseOrder (coid : String) (status : OrderStatus)
  | trade (edge : TradeEdge)

/-- A seeded account whose instance holds the given cash and tokens and has no orders yet. -/
def AccountState.seeded (accountId instanceId : String) (cash : ℚ)
    (balances : List (String × ℚ)) : AccountState where
  registry := {
    accountId := accountId
    seeded := true
    admission := true
    passiveAdmission := true
    coidRoutes := ∅
    oidRoutes := ∅
    tradeRoutes := ∅
    retiredTrades := ∅
    anomalousTrades := ∅
    tokenFeeConfigs := ∅
    settledTokens := ∅
    persistenceFailed := false
    ledgerGeneration := 0 }
  account := {
    instanceId := instanceId
    cash := cash
    reservedCash := 0
    positions := balances.foldr (fun b positions => positions.insert b.1 ⟨b.2, 0⟩) ∅
    orders := ∅
    trades := ∅
    recoveryPendingOrders := ∅
    startupQueryRepairOrders := ∅
    routineCancelAudits := ∅
    feeAttributionPending := ∅
    cancelAuditAnomalies := ∅
    recentTradeMutations := []
    reservationEpoch := 0
    tradeEpoch := 0 }

/-- Serve one call. -/
def AccountState.step (N : Numerics) (s : AccountState) : LifecycleOp → AccountState
  | .environment registry => { s with registry := registry }
  | .reserveOrder request allowFeeDegraded =>
    (s.reserveOrderWithFeePolicy N request allowFeeDegraded).2
  | .registerPreparedOrder ownership => (s.registerPreparedOrder N ownership).2
  | .backfillOrderOwnership ownership => (s.backfillOrderOwnership N ownership).2
  | .rebindOrderId coid orderId => (s.rebindOrderId coid orderId).2
  | .markOrderStatus coid status allow => (s.markOrderStatusEffectiveWithPolicy coid status allow).2
  | .markFilledPendingAudit coid => (s.markFilledPendingAudit N coid).2
  | .authoritativeAudit coid status audit => (s.applyAuthoritativeOrderAudit N coid status audit).2
  | .zeroFillRecovery expected => (s.applyZeroFillRecovery N expected).2
  | .inferNullCancellation expected => (s.inferNullCancellation N expected).2
  | .confirmRecoveryCancellation expected => (s.confirmRecoveryCancellation expected).2
  | .markCancelledPendingTradeAudit coid sizeMatched =>
    (s.markCancelledPendingTradeAudit N coid sizeMatched).2
  | .markCancelledPendingAudit coid => (s.markCancelledPendingAudit coid).2
  | .releaseOrder coid status => s.releaseOrder N coid status
  | .trade edge => (s.applyTradeTransition N edge).2

/-- Serve a sequence of calls. -/
def AccountState.run (N : Numerics) (s : AccountState) (ops : List LifecycleOp) : AccountState :=
  ops.foldl (AccountState.step N) s

end HexAgent.Account
