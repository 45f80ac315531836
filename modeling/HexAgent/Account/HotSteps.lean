import HexAgent.Account.HotWork
import HexAgent.Account.EconomicFees

/-!
# Calls of the lifecycle owner as hot work

Each operation on orders is a `HotStep`. A trade edge is one if it journals what it writes.
-/

namespace HexAgent.Account

open AList VirtualAccount Writes

variable {order : OrderOwnership} {op : LifecycleOp}

namespace AccountState

open VirtualAccount

variable {N : Numerics} {s : AccountState} {coid : String}

/-! ## Orders -/

/-- A row of the same owner is written, marks and counters change, and the order is recorded. -/
lemma hotStep_order {a b : VirtualAccount} (hget : a.orders.lookup coid = some order)
    (h : Writes a b "" coid order.tokenId) :
    HotStep a (b.recordVirtualTradeMutation "" coid order.tokenId) :=
  h.hotStep (.inr fun o ho => by cases hget.symm.trans ho; rfl)

lemma hotStep_applyAudit {audited : OrderOwnership}
    (hget : s.account.orders.lookup coid = some order) (hown : ownerOf audited = ownerOf order) :
    HotStep s.account (s.account.applyAudit N coid order audited).2 := by
  refine hotStep_order hget ?_
  refine .trans ?_ (.setCancelAuditAnomaly false)
  refine .trans ((rewriteOrder N hget hown).trans (.setRoutineAudit false)) ?_
  split
  · exact ((release N).trans (.setRecovery false)).trans .clearStartupRepair
  · exact .setRecovery true

lemma hotStep_cancelledPendingAudit (hget : s.account.orders.lookup coid = some order) :
    HotStep s.account (s.account.cancelledPendingAudit coid order).2 := by
  unfold cancelledPendingAudit
  split
  · exact .refl _
  · refine hotStep_order hget ?_
    refine .trans (.trans (.trans ?_ (.setRecovery false)) .clearStartupRepair)
      (.setRoutineAudit true)
    exact .setOrder hget rfl

lemma hotStep_markCancelledPendingTradeAudit {matched : ℚ} :
    HotStep s.account (s.markCancelledPendingTradeAudit N coid matched).2.account := by
  have hrout : Writes s.account (s.account.setRoutineAudit coid false) "" coid "" :=
    .setRoutineAudit false
  unfold markCancelledPendingTradeAudit
  split
  · exact .refl _
  dsimp only
  split
  · exact hrout.hotStep_quiet (fun _ => rfl) fun _ => rfl
  next order hget =>
  split
  · exact (hrout.trans (.setCancelAuditAnomaly true)).hotStep_quiet (fun _ => rfl) fun _ => rfl
  · refine hotStep_order (show s.account.orders.lookup coid = some order from hget) ?_
    refine (setRoutineAudit false).trans (.trans (.trans ?_ (.setRecovery _))
      (.setCancelAuditAnomaly false))
    exact .rewriteOrder N hget rfl

/-- One operation on orders. -/
lemma hotStep_of_not_trade (hop : ∀ e, op ≠ .trade e) :
    HotStep s.account (s.step N op).account := by
  cases op with
  | environment registry => exact .refl _
  | reserveOrder req allow =>
    refine reserveOrder_rule (.refl _) fun a _ _ hinst hnew ha => ?_
    exact .admission (o := req.ownership s.registry.accountId orderSlotUnassigned)
      ((Reserves.tryReserve ha).setOrder _ _) hnew hinst
  | registerPreparedOrder owned =>
    exact registerPreparedOrder_rule (.refl _) fun _ hinst hnew =>
      .admission (.adjustReservation N _ _ _) hnew hinst
  | backfillOrderOwnership owned =>
    exact backfillOrderOwnership_rule (.refl _) fun hinst hnew =>
      .admission (.raiseToMinimum N _) hnew hinst
  | rebindOrderId coid oid =>
    exact rebindOrderId_rule (.refl _) fun order _ hget => hotStep_order hget (.setOrder hget rfl)
  | markOrderStatus coid status allow =>
    refine withOrder_rule (.refl _) fun order _ hget => ?_
    split
    · exact .refl _
    · exact hotStep_order hget (.setOrder hget rfl)
  | markFilledPendingAudit coid =>
    refine withOrder_rule (.refl _) fun order _ hget => hotStep_order hget ?_
    have hfill : Writes s.account (s.account.setOrder coid { order with status := .filled }) ""
        coid order.tokenId := .setOrder hget rfl
    refine (hfill.trans (.setRoutineAudit false)).trans ?_
    split
    · exact .setRecovery true
    · exact .refl _
  | authoritativeAudit coid status audit | zeroFillRecovery expected =>
    exact authoritativeAudit_rule (.refl _) fun _ _ _ _ hget => hotStep_applyAudit hget rfl
  | inferNullCancellation expected =>
    refine withOrder_rule (.refl _) fun order _ hget => ?_
    split
    · exact .refl _
    split
    · exact .refl _
    · refine hotStep_order hget ?_
      refine .trans (.trans (.trans ?_ (.setRoutineAudit false)) (.setRecovery false))
        .clearStartupRepair
      exact .rewriteOrder N hget rfl
  | confirmRecoveryCancellation expected =>
    refine withOrder_rule (.refl _) fun order _ hget => ?_
    split
    · exact .refl _
    split
    · exact .refl _
    · exact hotStep_cancelledPendingAudit hget
  | markCancelledPendingTradeAudit coid matched =>
    exact hotStep_markCancelledPendingTradeAudit
  | markCancelledPendingAudit coid =>
    exact withOrder_rule (.refl _) fun order _ hget => hotStep_cancelledPendingAudit hget
  | releaseOrder coid status =>
    refine withOrder_rule (.refl _) fun order _ hget => hotStep_order hget ?_
    refine .trans ?_ (.setRoutineAudit false)
    exact .rewriteOrder N hget rfl
  | trade edge => exact absurd rfl (hop edge)

end AccountState

/-! ## Trades -/

namespace Writes

variable {N : Numerics} {a b : VirtualAccount} {key coid token : String} {t : AppliedTrade}

/-- A trade row was written whose token has a quota if the row holds anything new. -/
lemma setTrade (t : AppliedTrade) (htok : t.ownership.tokenId = token)
    (hown : t.ownership.instanceId = a.instanceId)
    (hold : ∀ old, a.trades.lookup key = some old → old.ownership.tokenId = token)
    (hheld : t.Holds → token ∈ a.positions ∨ ∃ old, a.trades.lookup key = some old ∧ old.Holds) :
    Writes a (a.setTrade key t) key coid token where
  instanceId := rfl
  recent := rfl
  tradeEpoch := rfl
  reservationEpoch := rfl
  tokens _ h := h
  orders _ _ := rfl
  order := rfl
  trades _ hk := lookup_insert_ne hk
  trade := .inr ⟨t, lookup_insert _, htok, hown, hold, hheld⟩

lemma known (h : Writes a b key coid token)
    (hold : ∀ old, a.trades.lookup key = some old → old.ownership.tokenId = token)
    (t : AppliedTrade) (ht : b.trades.lookup key = some t) : t.ownership.tokenId = token := by
  rcases h.trade with hsame | ⟨t', ht', htok, -⟩
  · exact hold t (hsame ▸ ht)
  · cases ht.symm.trans ht'
    exact htok

/-- Balances moved. -/
lemma move (cashDelta delta : ℚ) :
    Writes a ((a.addCash N cashDelta).addPosition N token delta) key coid token :=
  of_rows (fun _ h => (mem_insert _).2 (.inr h)) rfl

lemma moveFee (fee : ℚ × ℚ) (m : FeeMove) : Writes a (a.moveFee N token fee m) key coid token := by
  unfold VirtualAccount.moveFee
  split
  · exact refl a
  · exact move _ _

section

variable (hget : a.trades.lookup key = some t) (htok : t.ownership.tokenId = token)
  (hown : t.ownership.instanceId = a.instanceId)
include hget htok hown

/-- A row was rewritten for the same token and owner. -/
lemma rewriteTrade {t' : AppliedTrade} (htok' : t'.ownership.tokenId = t.ownership.tokenId)
    (hown' : t'.ownership.instanceId = t.ownership.instanceId)
    (hheld : t'.Holds → token ∈ a.positions ∨ t.Holds) :
    Writes a (a.setTrade key t') key coid token := by
  refine setTrade t' (htok'.trans htok) (hown'.trans hown) (fun old hold => ?_) fun h => ?_
  · cases hold.symm.trans hget
    exact htok
  · exact (hheld h).imp_right fun h => ⟨t, hget, h⟩

/-- The fee transition of a row of this shard. -/
lemma feeTransition {status : OrderStatus} {isMaker : Bool} {cfg : Option FeeBasis} :
    Writes a (a.applyTradeFeeTransitionVirtual N key status isMaker cfg).2 key coid token := by
  obtain ⟨settlement, feeConfig, hbound⟩ := boundTrade_eq (t := t)
  unfold applyTradeFeeTransitionVirtual
  rw [hget]
  dsimp only
  split
  · exact refl a
  rw [hbound]
  split
  · refine .trans ?_ (.setFeePending true)
    exact rewriteTrade hget htok hown rfl rfl .inr
  split
  · exact rewriteTrade hget htok hown rfl rfl .inr
  refine .trans ?_ (.setFeePending false)
  rw [htok]
  generalize feeMove N.tol t _ _ = m
  have hmove : Writes a (a.moveFee N token (effectiveFee N.tol t
      (lifecycleTradeFeeAmounts N t isMaker (feeConfigForTrade t cfg))) m) key coid token :=
    moveFee _ _
  refine hmove.trans (rewriteTrade ?_ htok (hown.trans hmove.instanceId.symm) rfl rfl ?_)
  · rw [moveFee_trades]
    exact hget
  · rintro (hbooked | hfee)
    · exact .inr (.inl hbooked)
    · -- A fee is booked together with a move of its token's quota.
      rcases Bool.or_eq_true _ _ ▸ hfee with hbook | hfee
      · left
        rw [eq_of_beq hbook]
        exact (mem_insert _).2 (.inl rfl)
      · exact .inr (.inr (Bool.and_eq_true _ _ ▸ hfee).1)

end

lemma settleOrder {e : TradeEdge} {m : TradeMove} (hget : a.orders.lookup coid = some order) :
    Writes a (a.settleOrder N coid order e m) key coid token := by
  have hfail : ownerOf (failOrder N.tol order e.quantity m.shouldReverse).1 = ownerOf order := by
    unfold failOrder
    split <;> rfl
  unfold VirtualAccount.settleOrder
  split
  · exact (rewriteOrder N hget hfail).trans (setRecovery _)
  split
  · exact rewriteOrder N hget rfl
  · exact refl a

lemma closeAudit (fullyFilled : Bool) :
    Writes a (a.closeAudit N coid fullyFilled) key coid token := by
  unfold VirtualAccount.closeAudit
  split
  · exact (release N).trans (setRecovery false)
  split
  · exact setRecovery false
  · exact refl a

end Writes

namespace AccountState

open VirtualAccount

variable (status : OrderStatus) {N : Numerics} {s : AccountState} {e : TradeEdge} {t : AppliedTrade}
  {coid : String} {price : ℚ} {prior : Option AppliedTrade}

lemma writes_applyEdgeFee (hget : s.account.trades.lookup e.tradeKey = some t)
    (htok : t.ownership.tokenId = e.tokenId)
    (hown : t.ownership.instanceId = s.account.instanceId) :
    Writes s.account (s.applyEdgeFee N e status).2.account e.tradeKey coid e.tokenId := by
  unfold applyEdgeFee
  split
  · exact .refl _
  · exact .feeTransition hget htok hown

lemma applyEdgeFee_orders : (s.applyEdgeFee N e status).2.account.orders = s.account.orders := by
  unfold applyEdgeFee
  split
  · rfl
  · exact applyTradeFeeTransitionVirtual_orders

/-- What an edge leaves: recorded work, or a write that was not recorded. -/
def EdgeOutcome (s : AccountState) (e : TradeEdge) (r : AccountState) : Prop :=
  HotStep s.account r.account ∨ ∃ coid, Writes s.account r.account e.tradeKey coid e.tokenId

/-- A row was rewritten for the same token and owner, and its fee is settled. -/
lemma edgeOutcome_of_stage {w : AccountState} {status : OrderStatus}
    {r : VirtualTradeAttempt × AccountState}
    (h : FeeStage N e w status r)
    (hwr : ∀ coid, Writes s.account w.account e.tradeKey coid e.tokenId)
    (hords : w.account.orders = s.account.orders)
    (hget : w.account.trades.lookup e.tradeKey = some t) (htok : t.ownership.tokenId = e.tokenId)
    (hown : t.ownership.instanceId = s.account.instanceId) : EdgeOutcome s e r.2 := by
  obtain ⟨-, hend⟩ := h
  have hfee coid := (hwr coid).trans (writes_applyEdgeFee (N := N) status hget htok
    (hown.trans (hwr coid).instanceId.symm))
  rcases hend with hsame | ⟨-, coid, hrec⟩
  · exact .inr ⟨"", hsame ▸ hfee ""⟩
  · refine .inl (hrec ▸ (hfee coid).hotStep (.inl ?_))
    rw [applyEdgeFee_orders, hords]

/-- Balances, order row and trade row of an accepted edge. -/
lemma writes_writeEdge (hacc : EdgeAccepted N s e price order prior)
    (hord : s.account.orders.lookup coid = some order) :
    Writes s.account ((s.claimTrade e.tradeKey).writeEdge N e price coid order prior
      (tradeMove e.status prior)).account e.tradeKey coid e.tokenId := by
  set m := tradeMove e.status prior
  have hmove :
    Writes s.account (s.account.movePrincipal N e price m) e.tradeKey coid e.tokenId := by
    unfold movePrincipal
    split
    · exact .move _ _
    · exact .refl _
  have hord' : Writes (s.account.movePrincipal N e price m)
      ((s.account.movePrincipal N e price m).settleOrder N coid order e m) e.tradeKey coid
      e.tokenId := .settleOrder (by rw [movePrincipal_orders, hord])
  have hsettle := hmove.trans hord'
  have htrs : ((s.account.movePrincipal N e price m).settleOrder N coid order e m).trades =
      s.account.trades := by rw [settleOrder_trades, movePrincipal_trades]
  let row := transitionedTrade prior ((s.claimTrade e.tradeKey).edgeOwnership e price coid order)
    e.context (s.registry.tokenFeeConfigs.lookup e.tokenId) m
  refine .trans (hsettle.trans (.setTrade row rfl hsettle.instanceId.symm ?_ ?_)) ?_
  · intro old hget
    rw [htrs, hacc.existing_eq] at hget
    subst hget
    exact hacc.known.1
  · rw [htrs, hacc.existing_eq]
    rintro (hbooked | hfee)
    · rcases Bool.or_eq_true _ _ ▸ hbooked with hbook | hbooked
      · -- A booking moves the token's quota first.
        refine .inl (hord'.tokens _ ?_)
        unfold movePrincipal
        rw [if_pos (by rw [hbook, Bool.true_or])]
        exact (mem_insert _).2 (.inl rfl)
      · obtain ⟨old, hold⟩ := (Option.any_eq_true _ _).1 (Bool.and_eq_true _ _ ▸ hbooked).1
        exact .inr ⟨old, hold.1, .inl hold.2⟩
    · obtain ⟨old, hold⟩ := (Option.any_eq_true _ _).1 hfee
      exact .inr ⟨old, hold.1, .inr hold.2⟩
  · show Writes _ (if e.context.isNone then _ else _) _ _ _
    split
    · exact .setFeePending true
    · exact .refl _

section

variable (hrows : s.account.ShardRows)
include hrows

lemma edgeOutcome_replayOwnedTrade (hget : s.account.trades.lookup e.tradeKey = some t) :
    EdgeOutcome s e (s.replayOwnedTrade N e price t).2 := by
  have hown := hrows.trade _ t hget
  rcases stage_replayOwnedTrade with ⟨-, heq⟩ | ⟨hval, -, hstage⟩
  · rw [heq]
    exact .inl (.refl _)
  have htok : t.ownership.tokenId = e.tokenId := by
    simp only [validateOwnedTradeReplay, decide_eq_true_eq] at hval
    exact hval.2.2.2.1
  unfold replayWritten at hstage
  split at hstage
  · exact edgeOutcome_of_stage hstage (fun _ => .rewriteTrade hget htok hown rfl rfl .inr) rfl
      (lookup_insert _) htok hown
  · exact edgeOutcome_of_stage hstage (fun _ => .refl _) rfl hget htok hown

lemma edgeOutcome_advanceStatus (coid : String)
    (order : OrderOwnership) (hget : s.account.trades.lookup e.tradeKey = some t)
    (htok : t.ownership.tokenId = e.tokenId) :
    EdgeOutcome s e (s.advanceStatus N e coid order t).2 := by
  have hown := hrows.trade _ t hget
  exact edgeOutcome_of_stage (stage_advanceStatus s coid order t)
    (fun _ => .rewriteTrade hget htok hown rfl rfl .inr) rfl (lookup_insert _) htok hown

lemma edgeOutcome_settleTrade (hacc : EdgeAccepted N s e price order prior) :
    EdgeOutcome s e ((s.claimTrade e.tradeKey).settleTrade N e price (s.resolveCoid e) order prior
      (tradeMove e.status prior)).2 := by
  have hord := hacc.order_eq
  generalize s.resolveCoid e = coid at hord ⊢
  have hold old (hget : s.account.trades.lookup e.tradeKey = some old) :
      old.ownership.tokenId = e.tokenId := by
    rw [hacc.existing_eq] at hget
    subst hget
    exact hacc.known.1
  have hwr := writes_writeEdge hacc hord
  have hfee : Writes s.account ((s.claimTrade e.tradeKey).edgeWritten N e price coid order prior
      (tradeMove e.status prior)).2.account e.tradeKey coid e.tokenId := by
    refine hwr.trans (writes_applyEdgeFee _ (lookup_writeEdge _ _ _ _ _) rfl ?_)
    exact hwr.instanceId.symm
  unfold settleTrade
  generalize (s.claimTrade e.tradeKey).edgeWritten N e price coid order prior
    (tradeMove e.status prior) = result at hfee
  obtain ⟨_ | feeChanged, r⟩ := result
  · exact .inr ⟨_, hfee⟩
  left
  refine hotStep ?_ (.inr fun o ho => ?_)
  · have hclosed := hfee.trans (.closeAudit (N := N)
      ((tradeMove e.status prior).shouldBook && (bookOrder N.tol order e.quantity).2))
    rw [← markVirtualFeePending_account (s := r)] at hclosed
    refine hclosed.trans ?_
    unfold stampGeneration
    split
    swap
    · exact .refl _
    split
    · exact .refl _
    next t ht =>
    have hfinal := hclosed.shardRows hrows
    exact .rewriteTrade ht (hclosed.known hold t ht) (hfinal.trade _ t ht) rfl rfl .inr
  · cases hord.symm.trans ho
    exact hacc.tokenId_eq

lemma edgeOutcome_applyTradeTransition : EdgeOutcome s e (s.applyTradeTransition N e).2 := by
  refine applyTradeTransition_cases (P := EdgeOutcome s e) (.inl (.refl _)) ?_ ?_ ?_
  · intro price t hadm _
    exact edgeOutcome_replayOwnedTrade hrows hadm.existing_eq
  · intro price order t hacc _
    exact edgeOutcome_advanceStatus (s := s.claimTrade e.tradeKey) hrows _ order
      hacc.existing_eq hacc.known.1
  · intro price order prior hacc _
    exact edgeOutcome_settleTrade hrows hacc

end

end AccountState

/-! ## Runs -/

/-- An edge that records no hint writes no row. -/
def LifecycleOp.Journals (N : Numerics) (s : AccountState) : LifecycleOp → Prop
  | .trade e =>
    let r := s.step N (.trade e)
    r.account.tradeEpoch = s.account.tradeEpoch →
      (∀ coid, r.account.orders.lookup coid = s.account.orders.lookup coid) ∧
        ∀ key, r.account.trades.lookup key = s.account.trades.lookup key
  | _ => True

/-- One call of the lifecycle owner with a valid row, which journals what it writes. -/
def HotCall (N : Numerics) (s : AccountState) (op : LifecycleOp) (s' : AccountState) : Prop :=
  op.HandsOverRow ∧ op.Journals N s ∧ s.step N op = s'

namespace AccountState

variable {N : Numerics} {s s' : AccountState}

/-- One call is hot work. -/
lemma hotStep_step (hrows : s.account.ShardRows) (hop : op.Journals N s) :
    HotStep s.account (s.step N op).account := by
  by_cases htr : ∃ e, op = .trade e
  · obtain ⟨e, rfl⟩ := htr
    rcases edgeOutcome_applyTradeTransition (N := N) hrows with hstep | ⟨coid, hwrs⟩
    · exact hstep
    · obtain ⟨hords, htrs⟩ := hop hwrs.tradeEpoch
      exact hwrs.hotStep_quiet hords htrs
  · exact hotStep_of_not_trade fun e he => htr ⟨e, he⟩

/-- A sequence of calls is hot work that keeps the counters exact. -/
lemma hotWork_run {ops : List LifecycleOp} (hN : N.AddsReserved) (heps : N.tol.eps = 0)
    (hrun : Trace (HotCall N) s ops s') (hrows : s.account.ShardRows) (hex : s.account.Exact) :
    ∃ hints, HotWork s.account s'.account hints ∧ s'.account.ShardRows ∧ s'.account.Exact := by
  refine hrun.invariant (P := fun r => ∃ hints, HotWork s.account r.account hints ∧
    r.account.ShardRows ∧ r.account.Exact) ?_ ⟨[], .refl _, hrows, hex⟩
  rintro r op _ ⟨hints, hwork, hrows, hex⟩ ⟨hrow, hop, rfl⟩
  obtain ⟨hints', hwork', hrows'⟩ := hotStep_step hrows hop
  exact ⟨_, hwork.trans hwork', hrows' hrows, (robust_step ⟨hN, heps⟩ hex hrow).exact⟩

end AccountState

end HexAgent.Account
