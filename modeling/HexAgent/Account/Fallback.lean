import HexAgent.Account.EconomicRun

/-!
# Edges that fall back

An edge that the shard's own path does not decide is left to the account-wide path. The edge itself
is checked before anything is written, but its fee is settled after the rows. A fee that contradicts
the stored one is refused when the match time, the status or the whole settlement of the edge is
written already, and the edge falls back with all that in place.

The earlier check of the fee does not prevent this: it looks at the row as it was before the edge,
it is skipped for a taker leg whose token has no current curve although the row may have bound one,
and a replayed edge does not pass it at all. `LateRefusal` collects these edges, in terms of the
state before them.
-/

namespace HexAgent.Account

open AList TradeEdge Option

/-- Cash, quotas, orders and trades of a shard are what they were. -/
structure VirtualAccount.SameRows (a b : VirtualAccount) : Prop where
  cash : b.cash = a.cash
  reservedCash : b.reservedCash = a.reservedCash
  positions : ∀ token, b.positions.lookup token = a.positions.lookup token
  orders : ∀ coid, b.orders.lookup coid = a.orders.lookup coid
  trades : ∀ key, b.trades.lookup key = a.trades.lookup key

section

open AccountState

variable {N : Numerics} {s : AccountState} {e : TradeEdge} {price : ℚ} {order : OrderOwnership}
  {existing : Option AppliedTrade}

/-- An edge that passes the checks takes the exit that they stand for. -/
lemma EdgeAdmitted.exit_replayed {applied : AppliedTrade}
    (h : EdgeAdmitted N s e price (some applied)) (hreplay : e.isReplay applied = true) :
    s.applyTradeTransitionVirtual N e = s.replayOwnedTrade N e price applied := by
  simp only [applyTradeTransitionVirtual, h.valid, h.existing_eq, h.price_eq, h.frozen, h.unsettled,
    h.live, hreplay, Bool.not_true, Bool.false_eq_true, if_false, if_true]

lemma EdgeAccepted.virtual_eq (h : EdgeAccepted N s e price order existing) :
    s.applyTradeTransitionVirtual N e = s.advanceTrade N e price existing := by
  have hadv := h.advances
  simp only [applyTradeTransitionVirtual, h.valid, h.existing_eq, h.price_eq, h.frozen, h.unsettled,
    h.live, Bool.not_true, Bool.false_eq_true, if_false]
  cases existing with
  | none => rfl
  | some applied =>
    rw [any_some] at hadv
    simp only [hadv, Bool.false_eq_true, if_false]

lemma EdgeAccepted.exit_advanced {applied : AppliedTrade}
    (h : EdgeAccepted N s e price order (some applied))
    (hkeeps : (tradeMove e.status (some applied)).isNone = true) :
    s.applyTradeTransitionVirtual N e =
      (s.claimTrade e.tradeKey).advanceStatus N e (s.resolveCoid e) order applied := by
  rw [h.virtual_eq]
  simp only [advanceTrade, h.order_eq, h.owned, h.named, h.orderId_eq, h.tokenId_eq, h.side_eq,
    h.agrees, h.fits, h.routed, hkeeps, ne_eq, not_true, or_false, if_false, Bool.not_true,
    Bool.false_eq_true]

lemma EdgeAccepted.exit_settled (h : EdgeAccepted N s e price order existing)
    (hmoves : existing = none ∨ (tradeMove e.status existing).isNone = false) :
    s.applyTradeTransitionVirtual N e = (s.claimTrade e.tradeKey).settleTrade N e price
      (s.resolveCoid e) order existing (tradeMove e.status existing) := by
  rw [h.virtual_eq]
  simp only [advanceTrade, h.order_eq, h.owned, h.named, h.orderId_eq, h.tokenId_eq, h.side_eq,
    h.agrees, h.fits, h.routed, ne_eq, not_true, or_false, if_false, Bool.not_true,
    Bool.false_eq_true]
  rcases hmoves with rfl | hmoves
  · rfl
  · simp only [hmoves]

end

namespace AccountState

open VirtualAccount

variable {N : Numerics} {s w : AccountState} {e : TradeEdge} {row : AppliedTrade} {price : ℚ}
  {order : OrderOwnership} {existing : Option AppliedTrade} {status : OrderStatus}
  {r : VirtualTradeAttempt × AccountState}

/-- The fee of the edge contradicts the fee that is stored on a row. -/
def FeeRefused (N : Numerics) (s : AccountState) (e : TradeEdge) (row : AppliedTrade) : Prop :=
  ∃ context, e.context = some context ∧
    let config := feeConfigForTrade row (s.takerFeeConfig e context)
    ¬(!context.isMaker && config.isNone) = true ∧
      feeReplayMismatch N.tol row (lifecycleTradeFeeAmounts N row context.isMaker config) = true

/-- A row after the role and the curve of the edge were bound. -/
def boundRow (s : AccountState) (e : TradeEdge) (row : AppliedTrade) : AppliedTrade :=
  e.context.elim row fun context =>
    boundTrade row context.isMaker (feeConfigForTrade row (s.takerFeeConfig e context))

/-- The row has the match time of the edge, and its role and curve, already. -/
def OnRow (s : AccountState) (e : TradeEdge) (row : AppliedTrade) : Prop :=
  e.matchTime row = row.matchTimeSecs ∧ s.boundRow e row = row

/-- An edge whose fee is refused after it has changed its row, by what the edge does: it books,
settles or reverses its trade; it advances the status of the row, unless a failure holds the status;
or it is replayed with a later match time, or with a role or curve that the row does not have
yet. -/
inductive LateRefusal (N : Numerics) (s : AccountState) (e : TradeEdge) : Prop
  | settled {price : ℚ} {order : OrderOwnership} {prior : Option AppliedTrade}
      (accepted : EdgeAccepted N s e price order prior)
      (moves : prior = none ∨ (tradeMove e.status prior).isNone = false)
      (refused : FeeRefused N s e (transitionedTrade prior
        (s.edgeOwnership e price (s.resolveCoid e) order) e.context
        (s.registry.tokenFeeConfigs.lookup e.tokenId) (tradeMove e.status prior)))
  | advanced {price : ℚ} {order : OrderOwnership} {applied : AppliedTrade}
      (accepted : EdgeAccepted N s e price order (some applied))
      (keeps : (tradeMove e.status (some applied)).isNone = true)
      (refused : FeeRefused N s e (e.advancedRow applied))
      (changed : applied.failed = true → ¬s.OnRow e applied)
  | replayed {price : ℚ} {applied : AppliedTrade}
      (admitted : EdgeAdmitted N s e price (some applied)) (replay : e.isReplay applied = true)
      (valid : validateOwnedTradeReplay N.tol applied.ownership e.clientOrderId e price = true)
      (role : e.InRole applied)
      (refused : FeeRefused N s e { applied with matchTimeSecs := e.matchTime applied })
      (changed : ¬s.OnRow e applied)

/-- The fee of an edge on a row of its role: it is refused, and the row bound, or settled. -/
lemma applyEdgeFee_cases (hcfg : w.registry.tokenFeeConfigs = s.registry.tokenFeeConfigs)
    (hrow : w.account.trades.lookup e.tradeKey = some row) (hrole : e.InRole row) :
    (FeeRefused N s e row ∧ w.applyEdgeFee N e status = (.error .feeMismatch,
        { w with account := w.account.setTrade e.tradeKey (s.boundRow e row) })) ∨
      ¬FeeRefused N s e row ∧ (w.applyEdgeFee N e status).1.isOk = true := by
  unfold FeeRefused applyEdgeFee boundRow
  cases hctx : e.context with
  | none => exact .inr ⟨by simp, rfl⟩
  | some context =>
    have htaker : w.takerFeeConfig e context = s.takerFeeConfig e context := by
      rw [takerFeeConfig, takerFeeConfig, hcfg]
    rw [InRole, hctx, any_some] at hrole
    simp only [some.injEq, exists_eq_left', elim_some]
    unfold applyTradeFeeTransitionVirtual
    rw [hrow, htaker]
    simp only [hrole, Bool.false_eq_true, if_false]
    split
    · next hpend => exact .inr ⟨fun h => h.1 hpend, rfl⟩
    next hknown =>
    split
    · next hmis => exact .inl ⟨⟨hknown, hmis⟩, rfl⟩
    · next hmis => exact .inr ⟨fun h => hmis h.2, rfl⟩

/-- An edge that settles the fee on `w` falls back exactly if the fee is refused, and then leaves
`w` with the row bound. -/
lemma fallback_of_fee (hiff : r.1 = .fallback ↔ (w.applyEdgeFee N e status).1.isOk = false)
    (hacc : r.1 = .fallback → r.2.account = (w.applyEdgeFee N e status).2.account)
    (hcfg : w.registry.tokenFeeConfigs = s.registry.tokenFeeConfigs)
    (hrow : w.account.trades.lookup e.tradeKey = some row) (hrole : e.InRole row) :
    (r.1 = .fallback ↔ FeeRefused N s e row) ∧ (FeeRefused N s e row →
      r.2.account = w.account.setTrade e.tradeKey (s.boundRow e row)) := by
  rcases applyEdgeFee_cases (N := N) hcfg hrow hrole with ⟨href, heq⟩ | ⟨hnot, hok⟩
  · rw [heq] at hiff hacc
    have hfall := hiff.2 rfl
    exact ⟨⟨fun _ => href, fun _ => hfall⟩, fun _ => hacc hfall⟩
  · refine ⟨⟨fun hfall => ?_, fun href => absurd href hnot⟩, fun href => absurd href hnot⟩
    rw [hiff.1 hfall] at hok
    cases hok

lemma boundRow_ownership : (s.boundRow e row).ownership = row.ownership := by
  unfold boundRow
  cases e.context with
  | none => rfl
  | some context =>
    obtain ⟨settlement, config, hbound⟩ := boundTrade_eq (t := row)
    rw [elim_some, hbound]

/-- A settled edge changes its row: an edge of the status that the row has would be a replay. -/
lemma lookup_ne_of_settled (hacc : EdgeAccepted N s e price order existing)
    {current : Option FeeBasis} {move : TradeMove} : s.account.trades.lookup e.tradeKey ≠
      some (s.boundRow e (transitionedTrade existing
        (s.edgeOwnership e price (s.resolveCoid e) order) e.context current move)) := by
  intro hsame
  have hadv := hacc.advances
  rw [← hacc.existing_eq, hsame, any_some, isReplay, boundRow_ownership] at hadv
  simp [transitionedTrade, edgeOwnership] at hadv

lemma sameRows_setTrade {a : VirtualAccount} {key : String}
    (h : a.trades.lookup key = some row) : a.SameRows (a.setTrade key row) := by
  refine ⟨rfl, rfl, fun _ => rfl, fun _ => rfl, fun other => ?_⟩
  by_cases hkey : other = key
  · rw [hkey, h]
    exact lookup_insert _
  · exact lookup_insert_ne hkey

lemma lookup_replayWritten (hget : s.account.trades.lookup e.tradeKey = some row) :
    (s.replayWritten e row).account.trades.lookup e.tradeKey =
      some { row with matchTimeSecs := e.matchTime row } := by
  unfold replayWritten
  split
  · exact lookup_insert _
  next htime =>
  have hsame : e.matchTime row = row.matchTimeSecs := by
    cases hctx : e.context with
    | none => simp [matchTime, hctx]
    | some context =>
      rw [hctx, any_some, decide_eq_true_eq] at htime
      rw [matchTime, hctx]
      exact max_eq_left (not_lt.1 htime)
  rw [hget, hsame]

lemma setTrade_replayWritten (t : AppliedTrade) :
    (s.replayWritten e row).account.setTrade e.tradeKey t = s.account.setTrade e.tradeKey t := by
  unfold replayWritten
  split
  · simp [VirtualAccount.setTrade, insert_insert]
  · rfl

/-- An edge that settles its trade falls back exactly if the fee is refused. -/
lemma stage_settleTrade {coid : String} {move : TradeMove} :
    let w := s.edgeWritten N e price coid order existing move
    let r := s.settleTrade N e price coid order existing move
    (r.1 = .fallback ↔ w.1.isOk = false) ∧ (r.1 = .fallback → r.2.account = w.2.account) := by
  unfold settleTrade
  obtain ⟨_ | _, u⟩ := s.edgeWritten N e price coid order existing move
  · exact ⟨⟨fun _ => rfl, fun _ => rfl⟩, fun _ => rfl⟩
  · refine ⟨⟨?_, ?_⟩, ?_⟩ <;> rintro ⟨⟩

/-- The row that is left if the fee is refused. If it is the stored one, nothing else was
touched. -/
lemma fallback_of_exit (h : EdgeExit N s e (some row) r) :
    (r.1 = .fallback ↔ FeeRefused N s e row) ∧ (FeeRefused N s e row →
      r.2.account.trades.lookup e.tradeKey = some (s.boundRow e row) ∧
      (s.account.trades.lookup e.tradeKey = some (s.boundRow e row) →
        s.account.SameRows r.2.account)) := by
  cases h with
  | replayed hadm _ hval hrole =>
    obtain ⟨hiff, hend⟩ :=
      (stage_replayOwnedTrade.resolve_left fun h => h.1 ⟨hval, hrole⟩).2.2
    obtain ⟨hfall, hleft⟩ := fallback_of_fee (s := s) hiff
      (fun h => hend.resolve_right fun hdone => hdone.1 h) (by unfold replayWritten; split <;> rfl)
      (lookup_replayWritten hadm.existing_eq) hrole
    refine ⟨hfall, fun href => ?_⟩
    rw [hleft href, setTrade_replayWritten]
    exact ⟨lookup_insert _, sameRows_setTrade⟩
  | @advanced price order applied hacc =>
    obtain ⟨hiff, hend⟩ := stage_advanceStatus (N := N) (e := e) (s.claimTrade e.tradeKey)
      (s.resolveCoid e) order applied
    obtain ⟨hfall, hleft⟩ := fallback_of_fee (s := s) hiff
      (fun h => hend.resolve_right fun hdone => hdone.1 h) rfl (lookup_insert _) hacc.role
    have hkeep t t' : ((s.account.setTrade e.tradeKey t).setTrade e.tradeKey t') =
        s.account.setTrade e.tradeKey t' := by
      simp [VirtualAccount.setTrade, insert_insert]
    refine ⟨hfall, fun href => ?_⟩
    rw [(hleft href).trans (hkeep _ _)]
    exact ⟨lookup_insert _, sameRows_setTrade⟩
  | settled hacc =>
    obtain ⟨hiff, hend⟩ := stage_settleTrade (s := s.claimTrade e.tradeKey)
    obtain ⟨hfall, hleft⟩ := fallback_of_fee (s := s) hiff hend rfl
      (lookup_writeEdge ..) (inRole_transitionedTrade ..)
    refine ⟨hfall, fun href => ⟨?_, fun hsame => absurd hsame (lookup_ne_of_settled hacc)⟩⟩
    rw [hleft href]
    exact lookup_insert _

lemma advancedRow_of_failed (h : row.failed = true) :
    e.advancedRow row = { row with matchTimeSecs := e.matchTime row } := by
  simp [advancedRow, h]

lemma boundRow_retimed_eq_iff :
    s.boundRow e { row with matchTimeSecs := e.matchTime row } = row ↔ s.OnRow e row := by
  have hbound (time : ℕ) : s.boundRow e { row with matchTimeSecs := time } =
      { s.boundRow e row with matchTimeSecs := time } := by
    unfold boundRow
    cases e.context with
    | none => rfl
    | some context =>
      simp only [elim_some, boundTrade, feeConfigForTrade]
      unfold bindTradeFeeConfig
      split
      · rfl
      · split <;> rfl
  have htime : (s.boundRow e row).matchTimeSecs = row.matchTimeSecs := by
    have hkept := congrArg AppliedTrade.matchTimeSecs (hbound row.matchTimeSecs)
    exact hkept
  rw [hbound]
  constructor
  · intro heq
    have hsame : e.matchTime row = row.matchTimeSecs := congrArg AppliedTrade.matchTimeSecs heq
    refine ⟨hsame, ?_⟩
    rw [hsame, ← htime] at heq
    exact heq
  · rintro ⟨hsame, heq⟩
    rw [heq, hsame]

/-- The late refusals in terms of the exits: the fee of the written row is refused, and the row is
not the stored one. -/
lemma lateRefusal_iff : LateRefusal N s e ↔
    ∃ row, EdgeExit N s e (some row) (s.applyTradeTransitionVirtual N e) ∧ FeeRefused N s e row ∧
      s.account.trades.lookup e.tradeKey ≠ some (s.boundRow e row) := by
  constructor
  · rintro (⟨hacc, hmoves, href⟩ | @⟨_, _, applied, hacc, hkeeps, href, hchg⟩ |
      ⟨hadm, hrepl, hval, hrole, href, hchg⟩)
    · exact ⟨_, hacc.exit_settled hmoves ▸ .settled hacc hmoves, href, lookup_ne_of_settled hacc⟩
    · refine ⟨_, hacc.exit_advanced hkeeps ▸ .advanced hacc hkeeps, href, fun hsame => ?_⟩
      rw [hacc.existing_eq, some_inj] at hsame
      by_cases hfail : applied.failed = true
      · rw [advancedRow_of_failed hfail, eq_comm, boundRow_retimed_eq_iff] at hsame
        exact hchg hfail hsame
      · have hst : applied.ownership.status = e.status := by
          rw [hsame, boundRow_ownership]
          exact if_neg hfail
        have hadv := hacc.advances
        simp [isReplay, hst] at hadv
    · refine ⟨_, hadm.exit_replayed hrepl ▸ .replayed hadm hrepl hval hrole, href, fun hsame => ?_⟩
      rw [hadm.existing_eq, some_inj, eq_comm, boundRow_retimed_eq_iff] at hsame
      exact hchg hsame
  · rintro ⟨row, hexit, href, hne⟩
    generalize s.applyTradeTransitionVirtual N e = r at hexit
    cases hexit with
    | replayed hadm hrepl hval hrole =>
      rw [hadm.existing_eq, ne_eq, some_inj, eq_comm, boundRow_retimed_eq_iff] at hne
      exact .replayed hadm hrepl hval hrole href hne
    | advanced hacc hkeeps =>
      refine .advanced hacc hkeeps href fun hfail hsame => hne ?_
      rw [hacc.existing_eq, advancedRow_of_failed hfail, boundRow_retimed_eq_iff.2 hsame]
    | settled hacc hmoves => exact .settled hacc hmoves href

/-- An edge that falls back leaves cash, quotas, orders and trades as they were, exactly unless its
fee is refused after it has changed its row. -/
theorem fallback_unchanged_iff (N : Numerics) (s : AccountState) (e : TradeEdge) :
    let r := s.applyTradeTransitionVirtual N e
    (r.1 = .fallback → s.account.SameRows r.2.account) ↔ ¬LateRefusal N s e := by
  intro r
  rw [lateRefusal_iff]
  constructor
  · rintro hsame ⟨row, hexit, href, hne⟩
    obtain ⟨hfall, hlate⟩ := fallback_of_exit hexit
    rw [← (hlate href).1, (hsame (hfall.2 href)).trades] at hne
    exact hne rfl
  · intro hnot hfall
    obtain ⟨_ | row, hexit⟩ := exit_applyTradeTransitionVirtual (N := N) (s := s) (e := e)
    · -- refused before anything was written
      change EdgeExit N s e none r at hexit
      generalize r = r' at hexit ⊢
      cases hexit
      exact ⟨rfl, rfl, fun _ => rfl, fun _ => rfl, fun _ => rfl⟩
    · obtain ⟨hiff, hlate⟩ := fallback_of_exit hexit
      have href := hiff.1 hfall
      exact (hlate href).2 (by_contra fun hne => hnot ⟨row, hexit, href, hne⟩)

/-- A fill fails with a quantity that differs within the tolerance. The fill is taken back, then the
fee of the other quantity is refused, and the edge falls back. -/
theorem fallback_after_reversal : let N := Numerics.clamped .source fun x _ => x
    let edge := fun status quantity => TradeEdge.mk "t1" status "c1" "0xa1" "token" .buy quantity
      (1 / 2) (some ⟨false, 0, some ⟨.collateralV2, none, some ⟨1 / 2, quantity / 2⟩,
        some ⟨.collateralV2, 1 / 10, 1⟩, none⟩⟩)
    let s := (seeded "account" "maker" 100 []).run N [
      .reserveOrder ⟨"maker", "c1", "0xA1", "token", .buy, 10, 1 / 2, 0⟩ false,
      .trade (edge .matched (10 - 1 / 10 ^ 9))]
    let r := s.applyTradeTransitionVirtual N (edge .failed 10)
    r.1 = .fallback ∧ r.2.account.cash = s.account.cash + 5 := by
  decide +kernel

end AccountState

end HexAgent.Account
