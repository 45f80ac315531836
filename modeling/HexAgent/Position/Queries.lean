import HexAgent.Position.Meters
import HexAgent.Position.Restore
import Mathlib.Tactic.Linarith

/-!
# Incremental queries follow the ledger

The index is right if each meter shows the sum of all contributions, and then every query returns
what the fold over the tables returns.

A late fee moves the quantity meter of a sell although the fold ignores the share fee of a sell. The
two agree because a sell is never charged in shares (`InCurrency`).
-/

namespace HexAgent.Position

open IncrementalQueries List AList Option Meter PositionManagerSnapshot RestoredTrade

variable (sym : String)

/-! ## Sound managers -/

/-- The fees are charged in the currency that the settlement accepts, with no tolerance. -/
def RestoredTrade.InCurrency (row : RestoredTrade) : Prop :=
  row.feeSettlement.acceptsFeeAmounts row.ownership.side row.isMaker row.usdcFee row.sharesFee 0 =
    true

/-- Fees are bound only in the currency that the settlement accepts. -/
def Mutation.InCurrency : Mutation → Prop
  | .attributeRestoredTradeFee row => row.InCurrency
  | _ => True

/-- A sell is not charged in shares. -/
lemma sharesFee_eq_zero {settlement : FeeSettlement} {isMaker : Bool} {usdcFee sharesFee : ℚ}
    (h : settlement.acceptsFeeAmounts .sell isMaker usdcFee sharesFee 0 = true) :
    sharesFee = 0 := by
  unfold FeeSettlement.acceptsFeeAmounts at h
  split at h
  · cases h
  next hneg =>
  have hnn : 0 ≤ sharesFee := not_lt.1 fun hlt => hneg (.inr hlt)
  have hle : sharesFee ≤ 0 := by
    split at h
    · simpa using (Bool.and_eq_true_iff.1 h).2
    · cases settlement <;> simpa using h
  exact le_antisymm hle hnn

lemma pos_of_validPendingOrderFields {coid : String} {price quantity : ℚ}
    (h : validPendingOrderFields coid sym price quantity = true) : 0 < price ∧ 0 < quantity := by
  simp only [validPendingOrderFields, Bool.and_eq_true, decide_eq_true_eq] at h
  exact ⟨h.1.2, h.2⟩

/-- An open order locks no negative amount. -/
structure PendingOrder.Locks (o : PendingOrder) : Prop where
  remaining : 0 ≤ o.remainingQuantity
  price : 0 ≤ o.price + o.cashFeePerShare
  original : 0 ≤ o.originalQuantity

variable {coid : String}

namespace PositionManager

variable (m : PositionManager) {μ : Meter} {key : String} {t : TradeRecord}
  {previous : Option TradeStatus} {row : RestoredTrade}

/-- Sum of all contributions to a meter. -/
def total (μ : Meter) : ℚ :=
  (m.trades.sumBy fun _ t => μ.trade t (some t.status)) + m.pendingOrders.sumBy fun _ o => μ.order o

/-- An index shows the sums of all contributions and has an entry for every live trade. -/
structure Indexes (q : IncrementalQueries) : Prop where
  value : ∀ μ, q.value μ = m.total μ
  entry : ∀ key t, m.trades.lookup key = some t → t.status ≠ .failed → t.assetId ∈ q.symbols

/-- The index of the manager is right, open orders lock no negative amount, and a sell whose fee is
not yet bound has no share fee. -/
structure Sound : Prop where
  indexed : ∀ q ∈ m.incrementalQueries, m.Indexes q
  pending : ∀ coid o, m.pendingOrders.lookup coid = some o → o.Locks
  unbound : ∀ key t, m.trades.lookup key = some t → t.feeAttributed = false → t.side = .sell →
    t.sharesFee = 0

/-- The manager without its index. -/
def plain : PositionManager := { m with incrementalQueries := none }

variable {m} {trade : TradeRecord} {queries : Option IncrementalQueries}

lemma plain_of_none (h : m.incrementalQueries = none) : m.plain = m := by
  rw [plain, ← h]

lemma Sound.plain (h : m.Sound) : m.plain.Sound :=
  ⟨fun q hq => absurd hq (not_mem_none q), h.pending, h.unbound⟩

/-! ### Folds -/

lemma sum_filter {β : Type*} {g : β → ℚ} {p : β → Bool} {l : List β} :
    ((l.filter p).map g).sum = (l.map fun e => if p e then g e else 0).sum := by
  induction l with
  | nil => rfl
  | cons e l ih =>
    rw [map_cons, sum_cons, ← ih]
    cases hp : p e
    · rw [filter_cons_of_neg (by simp [hp]), if_neg (by simp), zero_add]
    · rw [filter_cons_of_pos hp, map_cons, sum_cons, if_pos rfl]

/-- Meters of trades take no contribution of orders, and the other way round. -/
lemma total_trades (h : ∀ o, μ.order o = 0) :
    m.total μ = (m.trades.entries.map fun e => μ.trade e.2 (some e.2.status)).sum := by
  have hzero : (m.pendingOrders.sumBy fun _ o => μ.order o) = 0 := by simp [h]
  rw [total, hzero, add_zero]
  rfl

lemma total_orders (h : ∀ t status, μ.trade t status = 0) :
    m.total μ = m.pendingOrders.sumBy fun _ o => μ.order o := by
  have hzero : (m.trades.sumBy fun _ t => μ.trade t (some t.status)) = 0 := by simp [h]
  rw [total, hzero, zero_add]

lemma balance_plain : m.plain.balance = m.initBalance + m.total .cash := by
  rw [total_trades fun _ => rfl]
  refine foldl_measure id (fun b e => ?_) _ _
  by_cases hf : e.2.status = .failed
  · simp [trade, liveFactor, hf]
  · cases hside : e.2.side <;> simp [trade, TradeRecord.cash, liveFactor, hf, hside]
    ring

lemma getQuantity_plain :
    m.plain.getQuantity sym = m.initialQuantity sym + m.total (.quantity sym) := by
  rw [total_trades fun _ => rfl]
  refine foldl_measure id (fun b e => ?_) _ _
  by_cases hs : e.2.assetId = sym
  · by_cases hf : e.2.status = .failed
    · simp [trade, liveFactor, hf]
    · cases hside : e.2.side <;>
        simp [trade, TradeRecord.quantity, liveFactor, hf, hs, hside]
      ring
  · simp [trade, hs]

lemma lockedBuyCost_plain : m.plain.lockedBuyCost = m.total .lockedBuyCash := by
  rw [total_orders fun _ _ => rfl]
  refine sum_filter.trans (congrArg sum (map_congr_left fun e _ => ?_))
  simp [order]

lemma lockedSellQty_plain : m.plain.lockedSellQty sym = m.total (.lockedSellQuantity sym) := by
  rw [total_orders fun _ _ => rfl]
  refine sum_filter.trans (congrArg sum (map_congr_left fun e _ => ?_))
  simp [order]

lemma availableCash_plain :
    m.plain.availableCash =
      max (m.initBalance + m.total .availableCash - m.plain.lockedBuyCost) 0 := by
  rw [total_trades fun _ => rfl]
  refine congrArg (fun b => max (b - m.plain.lockedBuyCost) 0)
    (foldl_measure id (fun b e => ?_) _ _)
  by_cases hf : e.2.status = .failed
  · simp [trade, liveFactor, confirmedFactor, hf]
  rw [if_neg hf]
  cases hside : e.2.side with
  | buy =>
    simp [trade, TradeRecord.cash, liveFactor, hf, hside]
    ring
  | sell =>
    by_cases hc : e.2.status = .confirmed <;>
      simp [trade, TradeRecord.cash, confirmedFactor, hc, hside]

lemma availableInventory_plain :
    m.plain.availableInventory sym =
      max (m.initialQuantity sym + m.total (.availableQuantity sym) -
        m.plain.lockedSellQty sym) 0 := by
  rw [total_trades fun _ => rfl]
  refine congrArg (fun b => max (b - m.plain.lockedSellQty sym) 0)
    (foldl_measure id (fun b e => ?_) _ _)
  by_cases hs : e.2.assetId = sym
  · by_cases hf : e.2.status = .failed
    · simp [trade, liveFactor, confirmedFactor, hf]
    · cases hside : e.2.side with
      | buy =>
        by_cases hc : e.2.status = .confirmed <;>
          simp [trade, TradeRecord.quantity, confirmedFactor, hc, hf, hs, hside]
      | sell =>
        simp [trade, TradeRecord.quantity, liveFactor, hf, hs, hside]
        ring
  · simp [trade, hs]

/-! ### Trades -/

/-- The row is the first one of its trade, or changes the status of the recorded one. -/
inductive Advances (m : PositionManager) (key : String) (t : TradeRecord) :
    Option TradeStatus → Prop
  | first (hnone : m.trades.lookup key = none) (hbound : t.feeAttributed = true) :
    Advances m key t none
  | known (row : TradeRecord) (hrow : m.trades.lookup key = some row)
    (ht : t = { row with status := t.status }) : Advances m key t (some row.status)

lemma Advances.valueAt (h : m.Advances key t previous) (μ : Meter) :
    m.trades.valueAt (fun _ t => μ.trade t (some t.status)) key = μ.trade t previous := by
  cases h with
  | first hnone hbound => rw [valueAt_of_lookup_none hnone, trade_none]
  | known row hrow ht =>
    -- The contribution depends on the terms of a trade, not on its recorded status.
    rw [valueAt_of_lookup hrow, ht]
    cases μ <;> rfl

/-- A push is valid, agrees with the recorded trade and advances it: its row is written and a volume
is moved. -/
structure Books (m : PositionManager) (push t : TradeRecord) (previous : Option TradeStatus) :
    Prop where
  advances : m.Advances push.tradeId t previous
  status : t.status = push.status
  agrees : ∀ row ∈ m.trades.lookup push.tradeId, row.Agrees push
  first : m.trades.lookup push.tradeId = none → t = { push with feeAttributed := true }
  tradeId : isBlank push.tradeId = false
  assetId : isBlank push.assetId = false
  amounts : push.ValidAmounts
  fees : push.AcceptsFees (feeTolerance push.size)
  applied : (upsertOutcome previous push.status).applied = true
  eq : m.upsertTrade push = ((m.writeTrade push.tradeId t previous).addVolume push.isMaker
    (push.size * push.price * (upsertOutcome previous push.status).accumulatorSign),
    upsertOutcome previous push.status)

lemma upsertTrade_cases {push : TradeRecord} :
    m.upsertTrade push = (m, .noop) ∨ ∃ t previous, m.Books push t previous := by
  by_cases hval : isBlank push.tradeId ∨ isBlank push.assetId ∨ ¬push.ValidAmounts ∨
      ¬push.AcceptsFees (feeTolerance push.size)
  · exact .inl (if_pos hval)
  by_cases hagr : ∃ row ∈ m.trades.lookup push.tradeId, ¬row.Agrees push
  · exact .inl ((if_neg hval).trans (if_pos hagr))
  by_cases happl :
      ¬(upsertOutcome ((m.trades.lookup push.tradeId).map (·.status)) push.status).applied
  · exact .inl ((if_neg hval).trans ((if_neg hagr).trans (if_pos happl)))
  have hcheck := hval
  have hterms := hagr
  push Not at hcheck hterms
  obtain ⟨hid, hasset, hamounts, hfees⟩ := hcheck
  refine .inr ⟨bookedRow (m.trades.lookup push.tradeId) push,
    (m.trades.lookup push.tradeId).map (·.status), ?_, ?_, hterms, ?_, by simpa using hid,
    by simpa using hasset, hamounts, hfees, by simpa using happl,
    by simp only [upsertTrade, if_neg hval, if_neg hagr, if_neg happl]⟩
  · cases hrow : m.trades.lookup push.tradeId with
    | none => exact .first hrow rfl
    | some row => exact .known row hrow rfl
  · cases m.trades.lookup push.tradeId <;> rfl
  · intro hnone
    rw [hnone]
    rfl

/-! ### Late fees -/

/-- The index after a late fee comes from the one before. -/
lemma bindFeeQueries_cases {cashDelta quantityDelta : ℚ} {q' : IncrementalQueries}
    (h : m.bindFeeQueries trade cashDelta quantityDelta = some queries) (hq' : q' ∈ queries) :
    ∃ q ∈ m.incrementalQueries, (trade.status = .failed ∧ q' = q) ∨
      (trade.status ≠ .failed ∧ q.bindFee trade cashDelta quantityDelta = some q') := by
  unfold bindFeeQueries at h
  cases hq : m.incrementalQueries with
  | none =>
    rw [hq] at h
    cases h
    cases hq'
  | some q =>
    rw [hq] at h
    dsimp only at h
    refine ⟨q, rfl, ?_⟩
    by_cases hfail : trade.status = .failed
    · rw [if_pos hfail] at h
      cases h
      exact .inl ⟨hfail, (some.inj hq').symm⟩
    · rw [if_neg hfail] at h
      obtain ⟨q'', hbind, rfl⟩ := map_eq_some_iff.1 h
      cases hq'
      exact .inr ⟨hfail, hbind⟩

/-- Writing the fee of a trade keeps the index right. -/
lemma Indexes.bindFee {q q' : IncrementalQueries} (h : m.Indexes q)
    (htr : m.trades.lookup key = some trade)
    (hsell : trade.side = .sell → row.sharesFee = trade.sharesFee)
    (hq : (trade.status = .failed ∧ q' = q) ∨ (trade.status ≠ .failed ∧
      q.bindFee trade (trade.usdcFee - row.usdcFee) (trade.sharesFee - row.sharesFee) = some q')) :
    Indexes { m with
      incrementalQueries := queries
      trades := m.trades.insert key (trade.withFee row) } q' := by
  have htot μ : PositionManager.total { m with
      incrementalQueries := queries
      trades := m.trades.insert key (trade.withFee row) } μ = m.total μ +
        (μ.trade (trade.withFee row) (some trade.status) - μ.trade trade (some trade.status)) := by
    rw [total, total, sumBy_insert, valueAt_of_lookup htr]
    change _ + (μ.trade (trade.withFee row) (some trade.status) - _) + _ = _
    ring
  -- Entries of other trades are kept, and the written one is that of the trade.
  have hent (hsub : ∀ sym ∈ q.symbols, sym ∈ q'.symbols) :
      ∀ other t, (m.trades.insert key (trade.withFee row)).lookup other = some t →
        t.status ≠ .failed → t.assetId ∈ q'.symbols :=
    forall_lookup_insert (fun hlive => hsub _ (h.entry key trade htr hlive))
      fun other t hne hlive => hsub _ (h.entry other t hne hlive)
  rcases hq with ⟨hfail, rfl⟩ | ⟨hlive, hbind⟩
  · refine ⟨fun μ => ?_, hent fun sym hsym => hsym⟩
    -- A failed trade contributes nothing.
    have hzero t : μ.trade t (some .failed) = 0 := by
      cases μ <;> simp [Meter.trade, liveFactor, confirmedFactor]
    rw [htot, hfail, hzero, hzero, sub_zero, add_zero]
    exact h.value μ
  · refine ⟨fun μ => ?_, hent fun sym hsym => ?_⟩
    · rw [htot, ← h.value μ]
      exact q.value_bindFee trade (trade.withFee row) hbind ⟨rfl, rfl, rfl, rfl, rfl⟩ hlive hsell μ
    · unfold IncrementalQueries.bindFee at hbind
      split at hbind
      · cases hbind
        exact (mem_insert _).2 (.inr hsym)
      · cases hbind

/-! ### Open orders -/

lemma lookup_removePendingOrder (coid : String) :
    (m.removePendingOrder coid).pendingOrders.lookup coid = none := by
  unfold removePendingOrder
  split
  · next hnone => exact hnone
  · exact lookup_erase coid _

/-- What an update can do to the pending orders. -/
lemma syncPendingFromUpdate_rule {P : PositionManager → Prop} {u : OrderUpdate} (hsame : P m)
    (hrem : ∀ coid, P (m.removePendingOrder coid)) (hreg : ∀ coid sym side price qty fee,
      P (m.registerPendingOrderWithCashFee coid sym side price qty fee))
    (hfill : ∀ order, u.status = .partiallyFilled →
      m.pendingOrders.lookup u.clientOrderId = some order →
      let remaining := max (order.remainingQuantity - u.filledQuantity) 0
      let r := m.replacePending u.clientOrderId order { order with remainingQuantity := remaining }
      P (if remaining ≤ 0 then { r with pendingOrders := r.pendingOrders.erase u.clientOrderId }
        else r)) : P (m.syncPendingFromUpdate u) := by
  unfold syncPendingFromUpdate
  dsimp only
  split
  · exact hsame
  split
  · split
    · exact hsame
    · exact hfill _ ‹_› ‹_›
  · split
    · exact hsame
    · exact hrem _
  · exact hrem _
  · exact hrem _
  · exact hrem _
  · split
    · exact hreg _ _ _ _ _ _
    · exact hsame
  · exact hsame

/-! ### Queries of sound managers -/

namespace Sound

variable (symbol : String) (u : OrderUpdate) (delta : ℚ) (h : m.Sound)

include h

lemma total_locked_nonneg : 0 ≤ m.total .lockedBuyCash ∧
    ∀ sym, 0 ≤ m.total (.lockedSellQuantity sym) := by
  have hlocks e (he : e ∈ m.pendingOrders.entries) := h.pending e.1 e.2 (mem_entries_iff.1 he)
  refine ⟨?_, fun sym => ?_⟩ <;> rw [total_orders fun _ _ => rfl] <;>
    refine sumBy_nonneg fun e he => ?_ <;> rw [order] <;> split
  · exact mul_nonneg (hlocks e he).price (hlocks e he).remaining
  · exact le_refl 0
  · exact (hlocks e he).remaining
  · exact le_refl 0

/-- A query that is right with an index is right. -/
lemma of_indexed {f : PositionManager → ℚ}
    (hf : ∀ q, m.incrementalQueries = some q → m.Indexes q → f m = f m.plain) :
    f m = f m.plain := by
  cases hq : m.incrementalQueries with
  | none => rw [plain_of_none hq]
  | some q => exact hf q hq (h.indexed q hq)

lemma balance_eq : m.balance = m.plain.balance := by
  refine h.of_indexed fun q hq hind => ?_
  rw [balance_plain, balance, hq]
  exact congrArg (m.initBalance + ·) (hind.value .cash)

lemma getQuantity_eq : m.getQuantity symbol = m.plain.getQuantity symbol := by
  refine h.of_indexed (f := (getQuantity · symbol)) fun q hq hind => ?_
  rw [getQuantity_plain, getQuantity, hq]
  exact congrArg (m.initialQuantity symbol + ·) (hind.value (.quantity symbol))

lemma lockedBuyCost_eq : m.lockedBuyCost = m.plain.lockedBuyCost := by
  refine h.of_indexed fun q hq hind => ?_
  have hvalue : q.lockedBuyCash.value = m.total .lockedBuyCash := hind.value .lockedBuyCash
  rw [lockedBuyCost_plain, lockedBuyCost, hq]
  exact (congrArg (max · 0) hvalue).trans (max_eq_left h.total_locked_nonneg.1)

lemma lockedSellQty_eq : m.lockedSellQty symbol = m.plain.lockedSellQty symbol := by
  refine h.of_indexed (f := (lockedSellQty · symbol)) fun q hq hind => ?_
  have hvalue : (q.totals symbol).lockedSellQuantity.value = m.total (.lockedSellQuantity symbol) :=
    hind.value (.lockedSellQuantity symbol)
  rw [lockedSellQty_plain, lockedSellQty, hq]
  exact (congrArg (max · 0) hvalue).trans (max_eq_left (h.total_locked_nonneg.2 symbol))

lemma availableCash_eq : m.availableCash = m.plain.availableCash := by
  refine h.of_indexed fun q hq hind => ?_
  have hvalue : q.availableCash.value = m.total .availableCash := hind.value .availableCash
  rw [availableCash_plain, ← h.lockedBuyCost_eq, availableCash, hq]
  dsimp only
  rw [hvalue]

lemma availableInventory_eq : m.availableInventory symbol = m.plain.availableInventory symbol := by
  refine h.of_indexed (f := (availableInventory · symbol)) fun q hq hind => ?_
  have hvalue : (q.totals symbol).availableQuantity.value = m.total (.availableQuantity symbol) :=
    hind.value (.availableQuantity symbol)
  rw [availableInventory_plain, ← h.lockedSellQty_eq, availableInventory, hq]
  dsimp only
  rw [hvalue]

/-! ### Mutations -/

lemma of_tables {m' : PositionManager} (hq : m'.incrementalQueries = m.incrementalQueries)
    (htrs : m'.trades = m.trades) (hpend : m'.pendingOrders = m.pendingOrders) : m'.Sound := by
  refine ⟨fun q hq' => ?_, hpend ▸ h.pending, htrs ▸ h.unbound⟩
  have hind := h.indexed q (hq ▸ hq')
  refine ⟨fun μ => ?_, htrs ▸ hind.entry⟩
  rw [hind.value μ, total, total, htrs, hpend]

lemma writeTrade {prev : Option TradeStatus} (hadv : m.Advances key t prev) :
    (m.writeTrade key t prev).Sound := by
  constructor
  · intro q' hq'
    obtain ⟨q, hq, rfl⟩ := map_eq_some_iff.1 hq'
    have hind := h.indexed q hq
    constructor
    · intro μ
      rw [q.value_transition, hind.value μ, total, total]
      change _ = (m.trades.insert key t).sumBy _ + m.pendingOrders.sumBy _
      rw [sumBy_insert, hadv.valueAt μ]
      ring
    · refine forall_lookup_insert (fun hlive => ?_) fun other row hrow hlive =>
        q.mem_symbols_transition (hind.entry other row hrow hlive)
      -- Either the trade was live before, or it becomes live now.
      cases hadv with
      | first hnone hbound => exact q.mem_symbols_transition_self hlive (by simp [liveFactor])
      | known row' hrow ht =>
        by_cases hwas : row'.status = .failed
        · exact q.mem_symbols_transition_self hlive (by simp [liveFactor, hwas])
        · refine q.mem_symbols_transition ?_
          rw [ht]
          exact hind.entry key row' hrow hwas
  · exact h.pending
  · refine forall_lookup_insert (fun hunbound hsell => ?_) h.unbound
    cases hadv with
    | first hnone hbound =>
      rw [hbound] at hunbound
      cases hunbound
    | known row' hrow ht =>
      rw [ht] at hunbound hsell ⊢
      exact h.unbound key row' hrow hunbound hsell

lemma addVolume (isMaker : Bool) (notional : ℚ) :
    (m.addVolume isMaker notional).Sound := by
  unfold PositionManager.addVolume
  split <;> exact h.of_tables rfl rfl rfl

lemma upsertTrade (push : TradeRecord) : (m.upsertTrade push).1.Sound := by
  rcases m.upsertTrade_cases with hsame | ⟨t, previous, hbooks⟩
  · rw [hsame]
    exact h
  · rw [hbooks.eq]
    exact (h.writeTrade hbooks.advances).addVolume _ _

lemma attributeRestoredTradeFee (hrow : row.InCurrency) :
    (m.attributeRestoredTradeFee row).1.Sound := by
  unfold PositionManager.attributeRestoredTradeFee
  split
  · exact h
  next trade htr =>
  dsimp only
  split
  · exact h
  next hprov =>
  split
  · split <;> exact h
  next hunbound =>
  have hside : trade.side = row.ownership.side := by
    by_contra hne
    exact hprov (.inr (.inr (.inl hne)))
  have hsell : trade.side = .sell → row.sharesFee = trade.sharesFee := by
    intro hsell
    rw [InCurrency, ← hside, hsell] at hrow
    rw [sharesFee_eq_zero hrow, h.unbound _ _ htr (by simpa using hunbound) hsell]
  split
  · exact h
  next queries hquer =>
  constructor
  · intro q' hq'
    obtain ⟨q, hq, hcases⟩ := bindFeeQueries_cases hquer hq'
    refine (h.indexed q hq).bindFee htr hsell ?_
    rcases hcases with hfail | ⟨hlive, hbind⟩
    · exact .inl hfail
    · rw [if_pos hlive, if_pos hlive] at hbind
      exact .inr ⟨hlive, hbind⟩
  · exact h.pending
  · exact forall_lookup_insert nofun h.unbound

/-- Orders are written or removed, and every index moves by the change of the contributions. -/
lemma setPending (pending : AList fun _ => PendingOrder)
    (step : IncrementalQueries → IncrementalQueries) (hvalue : ∀ q μ, (step q).value μ = q.value μ +
      ((pending.sumBy fun _ o => μ.order o) - m.pendingOrders.sumBy fun _ o => μ.order o))
    (hsyms : ∀ q, ∀ sym ∈ q.symbols, sym ∈ (step q).symbols)
    (hlocks : ∀ coid o, pending.lookup coid = some o → o.Locks) :
    Sound { m with
      pendingOrders := pending
      incrementalQueries := m.incrementalQueries.map step } := by
  constructor
  · intro q' hq'
    obtain ⟨q, hq, rfl⟩ := map_eq_some_iff.1 hq'
    have hind := h.indexed q hq
    constructor
    · intro μ
      rw [hvalue, hind.value μ, total, total]
      ring
    · intro key t hkey hlive
      exact hsyms q _ (hind.entry key t hkey hlive)
  · exact hlocks
  · exact h.unbound

lemma replacePending {old : PendingOrder}
    (hold : m.pendingOrders.lookup coid = some old) (new : PendingOrder) (hnew : new.Locks) :
    (m.replacePending coid old new).Sound := by
  refine h.setPending _ _ (fun q μ => ?_) (fun q sym hsym => ?_)
    (forall_lookup_insert hnew h.pending)
  · rw [value_reservation, value_reservation, sumBy_insert, valueAt_of_lookup hold]
    ring
  · exact mem_symbols_reservation _
      (mem_symbols_reservation _ hsym)

lemma removePendingOrder (coid : String) :
    (m.removePendingOrder coid).Sound := by
  unfold PositionManager.removePendingOrder
  split
  · exact h
  next order hord =>
  refine h.setPending _ _ (fun q μ => ?_) (fun q sym hsym => ?_)
    fun coid o ho => h.pending coid o (lookup_of_erase ho)
  · rw [value_reservation, sumBy_erase, valueAt_of_lookup hord]
    ring
  · exact mem_symbols_reservation _ hsym

lemma registerPendingOrderWithCashFee (coid sym : String) (side : Side)
    (price quantity cashFeePerShare : ℚ) :
    (m.registerPendingOrderWithCashFee coid sym side price quantity cashFeePerShare).Sound := by
  unfold PositionManager.registerPendingOrderWithCashFee
  split
  · exact h
  next hfee =>
  split
  · exact h
  next hval =>
  have hfields := pos_of_validPendingOrderFields sym (by simpa using hval)
  have hnn : 0 ≤ cashFeePerShare := not_lt.1 fun hlt => hfee (.inl hlt)
  have hrem := h.removePendingOrder coid
  have hnone := lookup_removePendingOrder (m := m) coid
  refine hrem.setPending _ _ (fun q μ => ?_) (fun q sym hsym => ?_)
    (forall_lookup_insert ⟨hfields.2.le, add_nonneg hfields.1.le hnn, hfields.2.le⟩ hrem.pending)
  · rw [value_reservation, sumBy_insert, valueAt_of_lookup_none hnone]
    ring
  · exact mem_symbols_reservation _ hsym

lemma applyPrivateTradeReservation (coid : String) (qty : ℚ)
    (sign : ℤ) : (m.applyPrivateTradeReservation coid qty sign).1.Sound := by
  unfold PositionManager.applyPrivateTradeReservation
  split
  · exact h
  next hargs =>
  push Not at hargs
  split
  · exact h
  next order hord =>
  have hlocks := h.pending coid order hord
  refine h.replacePending hord _ { hlocks with remaining := ?_ }
  split
  · exact le_max_right _ _
  · exact le_min (by linarith [hargs.2.1, hlocks.remaining]) hlocks.original

/-- Dropping an order without remaining quantity moves no meter. -/
lemma erasePending {order : PendingOrder} (hord : m.pendingOrders.lookup coid = some order)
    (hzero : order.remainingQuantity = 0) :
    Sound { m with pendingOrders := m.pendingOrders.erase coid } := by
  have hcont (μ : Meter) : μ.order order = 0 := by
    cases μ <;> simp [Meter.order, hzero]
  have hset := h.setPending (m.pendingOrders.erase coid) id (fun q μ => by
    rw [sumBy_erase, valueAt_of_lookup hord, hcont, sub_zero, sub_self,
      add_zero, id]) (fun q sym hsym => hsym)
      fun coid o ho => h.pending coid o (lookup_of_erase ho)
  rwa [Option.map_id] at hset

lemma syncPendingFromUpdate : (m.syncPendingFromUpdate u).Sound := by
  refine syncPendingFromUpdate_rule h h.removePendingOrder h.registerPendingOrderWithCashFee
    fun order _ hord => ?_
  have hlocks := h.pending _ order hord
  have hrepl := h.replacePending hord
    { order with remainingQuantity := max (order.remainingQuantity - u.filledQuantity) 0 }
    { hlocks with remaining := le_max_right _ _ }
  dsimp only
  split
  · next hdone =>
    exact hrepl.erasePending (lookup_insert _) (le_antisymm hdone (le_max_right _ _))
  · exact hrepl

lemma setCounter (counter : ℕ) : Sound { m with syntheticCounter := counter } :=
  h.of_tables rfl rfl rfl

lemma onOrderUpdate : (m.onOrderUpdate u).Sound := by
  unfold PositionManager.onOrderUpdate
  have hsync := h.syncPendingFromUpdate u
  split
  · exact hsync
  · split
    · exact hsync
    · split
      · exact h
      · exact (hsync.setCounter _).upsertTrade _

lemma adjustBalance : (m.adjustBalance delta).Sound := h.of_tables rfl rfl rfl

lemma adjustQuantity : (m.adjustQuantity sym delta).Sound := by
  refine ⟨fun q' hq' => ?_, h.pending, h.unbound⟩
  obtain ⟨q, hq, rfl⟩ := map_eq_some_iff.1 hq'
  refine ⟨fun μ => ?_, fun key t hkey hlive => ?_⟩
  · rw [value_touch]
    exact (h.indexed q hq).value μ
  · exact mem_symbols_touch _ ((h.indexed q hq).entry key t hkey hlive)

/-- Building the index reads every trade and every order once. -/
lemma enableIncrementalQueries : m.enableIncrementalQueries.Sound := by
  unfold PositionManager.enableIncrementalQueries
  split
  · exact h
  refine ⟨fun q' hq' => ?_, h.pending, h.unbound⟩
  cases hq'
  constructor
  · intro μ
    have hords (q : IncrementalQueries) :
        (m.pendingOrders.entries.foldl (fun q e => q.reservation e.2 1) q).value μ =
          q.value μ + (m.pendingOrders.entries.map fun e => μ.order e.2).sum :=
      foldl_measure (value · μ)
        (fun q e => by rw [q.value_reservation, one_mul]) _ q
    have htrs (q : IncrementalQueries) :
        (m.trades.entries.foldl (fun q e => q.transition e.2 none) q).value μ =
          q.value μ + (m.trades.entries.map fun e => μ.trade e.2 (some e.2.status)).sum :=
      foldl_measure (value · μ)
        (fun q e => by rw [q.value_transition, trade_none, sub_zero]) _ q
    have hsyms : (m.initPositions.keys.foldl touch {}).value μ = 0 := by
      have hzero := foldl_measure (f := touch) (g := fun _ => 0)
        (value · μ)
        (fun q sym => by rw [value_touch, add_zero]) m.initPositions.keys {}
      simpa using hzero
    rw [hords, htrs, hsyms, zero_add]
    rfl
  · intro key t hkey hlive
    refine foldlRecOn (motive := (t.assetId ∈ symbols ·)) _ _ ?_
      fun q hq e _ => q.mem_symbols_reservation hq
    -- The loop over the trades gives every live trade an entry.
    have he : ⟨key, t⟩ ∈ m.trades.entries := mem_entries_iff.2 hkey
    generalize m.initPositions.keys.foldl touch {} = q
    generalize m.trades.entries = trades at he
    induction trades generalizing q with
    | nil => cases he
    | cons e l ih =>
      rcases mem_cons.1 he with rfl | hrest
      · exact foldlRecOn (motive := (t.assetId ∈ symbols ·)) l _
          (q.mem_symbols_transition_self hlive (by simp [liveFactor]))
          fun q hq e _ => q.mem_symbols_transition hq
      · exact ih _ hrest

/-- Mutations keep the index right. -/
lemma run {op : Mutation} (hop : op.InCurrency) : (op.run m).1.Sound := by
  cases op with
  | enableIncrementalQueries => exact h.enableIncrementalQueries
  | upsertTrade push => exact h.upsertTrade push
  | attributeRestoredTradeFee row => exact h.attributeRestoredTradeFee hop
  | onOrderUpdate u => exact h.onOrderUpdate u
  | syncPendingFromUpdate u => exact h.syncPendingFromUpdate u
  | registerPendingOrder => exact h.registerPendingOrderWithCashFee ..
  | applyPrivateTradeReservation => exact h.applyPrivateTradeReservation ..
  | removePendingOrder coid => exact h.removePendingOrder coid
  | adjustBalance delta => exact h.adjustBalance delta
  | adjustQuantity sym delta => exact h.adjustQuantity sym delta

lemma runAll {ops : List Mutation} (hops : ∀ op ∈ ops, op.InCurrency) :
    (m.runAll ops).Sound :=
  foldlRecOn ops _ h fun _ ht op hop => ht.run (hops op hop)

end Sound

/-! ## Starting points -/

lemma sound_of_empty (hq : m.incrementalQueries = none) (hpend : m.pendingOrders = ∅)
    (hunbound : ∀ key t, m.trades.lookup key = some t → t.feeAttributed = false → t.side = .sell →
      t.sharesFee = 0) : m.Sound := by
  refine ⟨fun q h => ?_, fun coid o h => ?_, hunbound⟩
  · rw [hq] at h
    cases h
  · rw [hpend] at h
    cases h

/-- A restored row keeps the index off and adds at most one trade. -/
lemma restoreRow_fields : (m.restoreRow row).incrementalQueries = m.incrementalQueries ∧
    (m.restoreRow row).pendingOrders = m.pendingOrders ∧
    ((m.restoreRow row).trades = m.trades ∨ ∃ status, (m.restoreRow row).trades =
      m.trades.insert row.ownership.tradeKey (row.record status)) := by
  unfold restoreRow
  split
  · exact ⟨rfl, rfl, .inl rfl⟩
  next status hst =>
  dsimp only
  split
  · exact ⟨rfl, rfl, .inl rfl⟩
  refine ⟨?_, ?_, .inr ⟨status, ?_⟩⟩
  all_goals
    split
    · unfold addVolume
      split <;> rfl
    · rfl

/-- The ways to start a manager, with fees in the currency that the settlement accepts. -/
inductive Started : PositionManager → Prop
  | new : Started .new
  | withInitialQuantities (initial : AList fun _ : String => ℚ) (balance : ℚ) :
    Started (.withInitialQuantities initial balance)
  | restored (positions : AList fun _ : String => ℚ) (balance : ℚ) (rows : List RestoredTrade)
    (hrows : ∀ row ∈ rows, row.InCurrency) :
    Started (.withPositionsAndRestoredTrades positions balance rows)
  | fromSnapshot (s : PositionManagerSnapshot) (m : PositionManager)
    (hm : PositionManager.fromSnapshot s = .ok m)
    (hfees : ∀ key t, s.trades.lookup key = some t → t.AcceptsFees 0) : Started m

lemma Started.sound (h : Started m) : m.Sound := by
  cases h with
  | new | withInitialQuantities initial balance =>
    refine sound_of_empty rfl rfl fun key t h => ?_
    cases h
  | restored posns balance rows hrows =>
    unfold withPositionsAndRestoredTrades
    generalize hstart : PositionManager.withInitialQuantities posns balance = start
    have hsound : start.Sound ∧ start.incrementalQueries = none ∧ start.pendingOrders = ∅ := by
      rw [← hstart]
      refine ⟨sound_of_empty rfl rfl fun key t h => ?_, rfl, rfl⟩
      cases h
    clear hstart
    induction rows generalizing start with
    | nil => exact hsound.1
    | cons row rows ih =>
      obtain ⟨hstart, hq, hpend⟩ := hsound
      obtain ⟨hq', hpend', htrs⟩ := restoreRow_fields
      refine ih (fun r hr => hrows r (.tail _ hr)) _
        ⟨sound_of_empty (hq'.trans hq) (hpend'.trans hpend) fun key t hkey hunbound hsell => ?_,
          hq'.trans hq, hpend'.trans hpend⟩
      rcases htrs with hsame | ⟨status, hins⟩
      · rw [hsame] at hkey
        exact hstart.unbound key t hkey hunbound hsell
      rw [hins] at hkey
      refine forall_lookup_insert (fun _ hsell => ?_) hstart.unbound key t hkey hunbound hsell
      -- The fee of the new row is in its currency.
      have hside : row.ownership.side = .sell := hsell
      have hrow := hrows row (.head _)
      rw [InCurrency, hside] at hrow
      exact sharesFee_eq_zero hrow
  | fromSnapshot s m hm hfees =>
    obtain ⟨hacc, rfl⟩ := fromSnapshot_eq_ok_iff.1 hm
    refine ⟨fun q hq => (by cases hq), fun coid o hcoid => ?_, fun key t hkey _ hsell => ?_⟩
    · have hcheck := hacc.pending ⟨coid, o⟩ (mem_entries_iff.2 hcoid)
      unfold checkPending at hcheck
      split at hcheck
      · next hok =>
        obtain ⟨-, hfields, hfee, -, hrem, -⟩ := hok
        have hpos := pos_of_validPendingOrderFields _ hfields
        exact ⟨hrem, add_nonneg hpos.1.le hfee, hpos.2.le⟩
      · cases hcheck
    · have hfee := hfees key t hkey
      rw [TradeRecord.AcceptsFees, hsell] at hfee
      exact sharesFee_eq_zero hfee

/-- Whenever incremental queries are on, every query returns what the fold over the ledger and the
open orders returns. -/
theorem incremental_queries_eq_fold (m : PositionManager) (hm : Started m) (ops : List Mutation)
    (hops : ∀ op ∈ ops, op.InCurrency) : let n := m.runAll ops
    n.balance = n.plain.balance ∧
    (∀ symbol, n.getQuantity symbol = n.plain.getQuantity symbol) ∧
    n.availableCash = n.plain.availableCash ∧
    (∀ symbol, n.availableInventory symbol = n.plain.availableInventory symbol) ∧
    n.lockedBuyCost = n.plain.lockedBuyCost ∧
    ∀ symbol, n.lockedSellQty symbol = n.plain.lockedSellQty symbol := by
  have hsound := hm.sound.runAll hops
  exact ⟨hsound.balance_eq, hsound.getQuantity_eq, hsound.availableCash_eq,
    hsound.availableInventory_eq, hsound.lockedBuyCost_eq, hsound.lockedSellQty_eq⟩

/-- A sell that is confirmed while its order is open. -/
def sampleRun : List Mutation :=
  [.enableIncrementalQueries, .registerPendingOrder "c1" "UP" .sell (1 / 2) 4 0,
    .upsertTrade ⟨"t1", "UP", .sell, 2, 1 / 2, .matched, false, 1 / 100, 0, .legacyV1, true⟩,
    .applyPrivateTradeReservation "c1" 2 1,
    .upsertTrade ⟨"t1", "UP", .sell, 2, 1 / 2, .confirmed, false, 1 / 100, 0, .legacyV1, true⟩]

theorem incremental_queries_eq_fold_sell :
    let n :=
      (withInitialQuantities ((∅ : AList fun _ : String => ℚ).insert "UP" 10) 100).runAll sampleRun
    n.incrementalQueries.isSome ∧ n.balance = 10099 / 100 ∧ n.balance = n.plain.balance ∧
      n.availableInventory "UP" = 6 ∧
      n.availableInventory "UP" = n.plain.availableInventory "UP" := by
  have hquer := incremental_queries_eq_fold _
    (.withInitialQuantities ((∅ : AList fun _ : String => ℚ).insert "UP" 10) 100) sampleRun
    (by
      intro op hop
      simp only [sampleRun, mem_cons, not_mem_nil, or_false] at hop
      rcases hop with rfl | rfl | rfl | rfl | rfl <;> trivial)
  refine ⟨by decide +kernel, by decide +kernel, hquer.1, by decide +kernel, hquer.2.2.2.1 "UP"⟩

end PositionManager

end HexAgent.Position
