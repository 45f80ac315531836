import HexAgent.Position.Confluence
import HexAgent.ToMathlib.Trace

/-!
# Snapshots of a position ledger

A snapshot keeps the tables of a manager and leaves out its index. The index is only a faster way to
answer queries: a manager and its plain form give the same replies to the same mutations. So a
restored manager behaves like the original one, provided that its snapshot is accepted.

A snapshot is accepted if its volumes are those of its trades. A push that reverses a trade
subtracts its own notional, which may differ from the recorded one within the tolerances of
`Agrees`, so the stored volume can drift away from the trades, and even become negative.
-/

namespace HexAgent.Position

open AList Bool PositionManagerSnapshot List FeeSettlement

variable {key : String} {t : TradeRecord} {settlement : FeeSettlement} {side : Side}
  {isMaker : Bool} {op : Mutation} {row : RestoredTrade} (coid : String)

namespace PositionManager

variable {m n : PositionManager}

/-! ## The index changes no reply -/

section Plain

variable (u : OrderUpdate)

@[simp] lemma plain_plain : m.plain.plain = m.plain := rfl

lemma plain_writeTrade (key : String) (t : TradeRecord) (previous : Option TradeStatus) :
    (m.writeTrade key t previous).plain = m.plain.writeTrade key t previous := rfl

lemma plain_addVolume (isMaker : Bool) (notional : ℚ) :
    (m.addVolume isMaker notional).plain = m.plain.addVolume isMaker notional := by
  unfold addVolume
  split <;> rfl

lemma upsertTrade_plain {push : TradeRecord} :
    m.plain.upsertTrade push = ((m.upsertTrade push).1.plain, (m.upsertTrade push).2) := by
  have htrs : m.plain.trades = m.trades := rfl
  unfold upsertTrade
  simp only [htrs, ← plain_writeTrade, ← plain_addVolume]
  split_ifs <;> rfl

/-- A live trade has an entry in the index, so its fee can always be bound. -/
lemma Sound.bindFeeQueries_isSome (h : m.Sound) {trade : TradeRecord}
    (htr : m.trades.lookup key = some trade) {cashDelta quantityDelta : ℚ} :
    ∃ queries, m.bindFeeQueries trade cashDelta quantityDelta = some queries := by
  unfold bindFeeQueries
  cases hq : m.incrementalQueries with
  | none => exact ⟨none, rfl⟩
  | some q =>
    by_cases hfail : trade.status = .failed
    · exact ⟨some q, if_pos hfail⟩
    · have hent := (h.indexed q hq).entry key trade htr hfail
      obtain ⟨q', hbind⟩ : ∃ q', q.bindFee trade cashDelta quantityDelta = some q' :=
        ⟨_, if_pos hent⟩
      exact ⟨some q', (if_neg hfail).trans (by rw [hbind, Option.map_some])⟩

lemma Sound.attributeRestoredTradeFee_plain (h : m.Sound) (row : RestoredTrade) :
    m.plain.attributeRestoredTradeFee row =
      ((m.attributeRestoredTradeFee row).1.plain, (m.attributeRestoredTradeFee row).2) := by
  have htrs : m.plain.trades = m.trades := rfl
  unfold PositionManager.attributeRestoredTradeFee
  rw [htrs]
  cases htr : m.trades.lookup row.ownership.tradeKey with
  | none => rfl
  | some trade =>
    dsimp only
    split_ifs
    · rfl
    · rfl
    · rfl
    all_goals
      obtain ⟨queries, hquer⟩ := h.bindFeeQueries_isSome htr
      rw [hquer]
      rfl

lemma replacePending_plain (old new : PendingOrder) :
    m.plain.replacePending coid old new = (m.replacePending coid old new).plain := rfl

lemma removePendingOrder_plain :
    m.plain.removePendingOrder coid = (m.removePendingOrder coid).plain := by
  have hpend : m.plain.pendingOrders = m.pendingOrders := rfl
  unfold removePendingOrder
  rw [hpend]
  split <;> rfl

lemma registerPendingOrderWithCashFee_plain (sym : String) (side : Side)
    (price qty cashFeePerShare : ℚ) :
    m.plain.registerPendingOrderWithCashFee coid sym side price qty cashFeePerShare =
      (m.registerPendingOrderWithCashFee coid sym side price qty cashFeePerShare).plain := by
  unfold registerPendingOrderWithCashFee
  rw [removePendingOrder_plain]
  split_ifs <;> rfl

lemma applyPrivateTradeReservation_plain (qty : ℚ) (sign : ℤ) :
    m.plain.applyPrivateTradeReservation coid qty sign =
      ((m.applyPrivateTradeReservation coid qty sign).1.plain,
        (m.applyPrivateTradeReservation coid qty sign).2) := by
  have hpend : m.plain.pendingOrders = m.pendingOrders := rfl
  unfold applyPrivateTradeReservation
  rw [hpend]
  split
  · rfl
  · split <;> rfl

lemma syncPendingFromUpdate_plain :
    m.plain.syncPendingFromUpdate u = (m.syncPendingFromUpdate u).plain := by
  have hpend : m.plain.pendingOrders = m.pendingOrders := rfl
  unfold syncPendingFromUpdate registerPendingOrder
  simp only [hpend, replacePending_plain, removePendingOrder_plain,
    registerPendingOrderWithCashFee_plain]
  split
  · rfl
  · split
    · split
      · rfl
      · split <;> rfl
    all_goals first | rfl | (split <;> rfl)

lemma onOrderUpdate_plain : m.plain.onOrderUpdate u = (m.onOrderUpdate u).plain := by
  unfold onOrderUpdate
  rw [syncPendingFromUpdate_plain]
  split
  · rfl
  split
  · rfl
  · split
    · rfl
    · exact congrArg Prod.fst
        (upsertTrade_plain (m := { m.syncPendingFromUpdate u with syntheticCounter := _ }))

/-- Mutations give the same reply and the same tables with and without the index. -/
lemma Sound.run_plain (h : m.Sound) (op : Mutation) :
    (op.run m.plain).1.plain = (op.run m).1.plain ∧ (op.run m.plain).2 = (op.run m).2 := by
  cases op with
  | enableIncrementalQueries =>
    refine ⟨?_, rfl⟩
    change m.plain.enableIncrementalQueries.plain = m.enableIncrementalQueries.plain
    unfold PositionManager.enableIncrementalQueries
    cases hq : m.incrementalQueries <;> rfl
  | upsertTrade push => simp [Mutation.run, upsertTrade_plain]
  | attributeRestoredTradeFee row => simp [Mutation.run, h.attributeRestoredTradeFee_plain]
  | onOrderUpdate u => simp [Mutation.run, onOrderUpdate_plain]
  | syncPendingFromUpdate u => simp [Mutation.run, syncPendingFromUpdate_plain]
  | registerPendingOrder coid sym side price qty cashFeePerShare =>
    simp [Mutation.run, registerPendingOrderWithCashFee_plain]
  | applyPrivateTradeReservation coid qty sign =>
    simp [Mutation.run, applyPrivateTradeReservation_plain]
  | removePendingOrder coid => simp [Mutation.run, removePendingOrder_plain]
  | adjustBalance delta => exact ⟨rfl, rfl⟩
  | adjustQuantity sym delta => exact ⟨rfl, rfl⟩

end Plain

/-! ### Whole runs -/

/-- The replies to a run. -/
def replies (m : PositionManager) : List Mutation → List Reply
  | [] => []
  | op :: ops => (op.run m).2 :: (op.run m).1.replies ops

/-- Two managers answer every query alike. -/
structure Agree (m n : PositionManager) : Prop where
  balance : m.balance = n.balance
  getQuantity : ∀ symbol, m.getQuantity symbol = n.getQuantity symbol
  availableCash : m.availableCash = n.availableCash
  availableInventory : ∀ symbol, m.availableInventory symbol = n.availableInventory symbol
  lockedBuyCost : m.lockedBuyCost = n.lockedBuyCost
  lockedSellQty : ∀ symbol, m.lockedSellQty symbol = n.lockedSellQty symbol
  status : ∀ key, (m.trades.lookup key).map (·.status) = (n.trades.lookup key).map (·.status)
  makerVolume : m.makerVolume = n.makerVolume
  takerVolume : m.takerVolume = n.takerVolume

lemma agree_of_plain (hm : m.Sound) (hn : n.Sound) (h : m.plain = n.plain) :
    m.Agree n where
  balance := by rw [hm.balance_eq, hn.balance_eq, h]
  getQuantity symbol := by rw [hm.getQuantity_eq, hn.getQuantity_eq, h]
  availableCash := by rw [hm.availableCash_eq, hn.availableCash_eq, h]
  availableInventory symbol := by rw [hm.availableInventory_eq, hn.availableInventory_eq, h]
  lockedBuyCost := by rw [hm.lockedBuyCost_eq, hn.lockedBuyCost_eq, h]
  lockedSellQty symbol := by rw [hm.lockedSellQty_eq, hn.lockedSellQty_eq, h]
  status key := congrArg (fun n => (n.trades.lookup key).map (·.status)) h
  makerVolume := by
    change m.plain.makerVolume = n.plain.makerVolume
    rw [h]
  takerVolume := by
    change m.plain.takerVolume = n.plain.takerVolume
    rw [h]

/-- Managers with the same tables answer a run alike and end with the same tables. -/
lemma replies_eq_of_plain (hm : m.Sound) (hn : n.Sound) (h : m.plain = n.plain)
    {ops : List Mutation} (hops : ∀ op ∈ ops, op.InCurrency) :
    m.replies ops = n.replies ops ∧ (m.runAll ops).plain = (n.runAll ops).plain := by
  induction ops generalizing m n with
  | nil => exact ⟨rfl, h⟩
  | cons op ops ih =>
    have hop := hops op (.head _)
    have hm' := hm.run_plain op
    have hn' := hn.run_plain op
    rw [h] at hm'
    obtain ⟨hrepl, htables⟩ := ih (hm.run hop) (hn.run hop) (hm'.1.symm.trans hn'.1)
      fun other hne => hops other (.tail _ hne)
    exact ⟨congrArg₂ cons (hm'.2.symm.trans hn'.2) hrepl, htables⟩

end PositionManager

/-! ## Managers whose snapshot is accepted -/

/-- A trade passes the checks on the way back, with whatever status it gets later. -/
structure TradeRecord.Restores (t : TradeRecord) (key : String) : Prop where
  keyed : isBlank key = false
  tradeId : t.tradeId = key
  assetId : isBlank t.assetId = false
  amounts : t.ValidAmounts
  fees : t.AcceptsFees (feeTolerance t.size)
  unbound : t.feeAttributed = false →
    t.usdcFee ≤ feeTolerance t.size ∧ t.sharesFee ≤ feeTolerance t.size

lemma TradeRecord.Restores.checkTrade (h : t.Restores key) :
    checkTrade key t = .ok () := by
  unfold PositionManagerSnapshot.checkTrade
  rw [if_neg, if_neg, if_neg]
  · rintro ⟨hunbound, -, hfee⟩
    have hsmall := h.unbound (by simpa using hunbound)
    rcases hfee with hfee | hfee
    · exact absurd hfee hsmall.1.not_gt
    · exact absurd hfee hsmall.2.not_gt
  · exact not_not_intro h.fees
  · rintro (hkey | hid | hasset | hamounts)
    · simp [h.keyed] at hkey
    · exact hid h.tradeId
    · simp [h.assetId] at hasset
    · exact hamounts h.amounts

/-- The mutation repeats the notional of a trade that is already recorded, fills no negative amount,
adjusts a symbol that has a name, and binds fees in the currency that the settlement accepts. -/
def Mutation.Repeats (m : PositionManager) : Mutation → Prop
  | .upsertTrade push =>
    ∀ row ∈ m.trades.lookup push.tradeId, row.size * row.price = push.size * push.price
  | .onOrderUpdate u =>
    (u.status = .partiallyFilled → 0 ≤ u.filledQuantity) ∧
      (0 < u.filledQuantity → ∀ row ∈ m.trades.lookup (m.updateTradeId u).1,
        row.size * row.price = u.filledQuantity * u.avgFillPrice)
  | .syncPendingFromUpdate u => u.status = .partiallyFilled → 0 ≤ u.filledQuantity
  | .attributeRestoredTradeFee row => row.InCurrency
  | .adjustQuantity symbol _ => isBlank symbol = false
  | _ => True

lemma Mutation.Repeats.inCurrency {m : PositionManager} (h : op.Repeats m) : op.InCurrency := by
  cases op with
  | attributeRestoredTradeFee row => exact h
  | _ => trivial

namespace PositionManager

variable {m : PositionManager} {role : Bool}

/-- The tables of the manager pass the checks of `from_snapshot`, and its volumes are those of its
trades. -/
structure Restorable (m : PositionManager) : Prop where
  positions : ∀ symbol ∈ m.initPositions, isBlank symbol = false
  trades : ∀ key t, m.trades.lookup key = some t → t.Restores key
  pending : ∀ coid o, m.pendingOrders.lookup coid = some o →
    PositionManagerSnapshot.PendingOk coid o
  volume : ∀ role, m.volumeOf role = m.ledgerVolume role

lemma volume_nonneg_of_validAmounts (h : t.ValidAmounts) : 0 ≤ t.volume role := by
  unfold TradeRecord.volume
  split
  · exact mul_nonneg h.1.le h.2.1.le
  · exact le_rfl

lemma nonneg_of_acceptsFeeAmounts {usdcFee sharesFee tolerance : ℚ}
    (h : settlement.acceptsFeeAmounts side isMaker usdcFee sharesFee tolerance = true) :
    0 ≤ usdcFee ∧ 0 ≤ sharesFee := by
  unfold acceptsFeeAmounts at h
  split at h
  · cases h
  next hneg =>
  push Not at hneg
  exact hneg

open PositionManagerSnapshot (PendingOk)

/-- An order stays well formed while its remaining quantity stays between zero and its size. -/
lemma pendingOk_remaining {coid : String} {order : PendingOrder} (h : PendingOk coid order)
    {remaining : ℚ} (hnn : 0 ≤ remaining) (hle : remaining ≤ order.originalQuantity + 1 / 10 ^ 8) :
    PendingOk coid { order with remainingQuantity := remaining } :=
  ⟨h.1, h.2.1, h.2.2.1, h.2.2.2.1, hnn, hle⟩

/-- Order bookkeeping touches neither the trades nor the counter of made-up ids. -/
lemma syncPendingFromUpdate_frame {u : OrderUpdate} :
    (m.syncPendingFromUpdate u).trades = m.trades ∧
      (m.syncPendingFromUpdate u).syntheticCounter = m.syntheticCounter := by
  have hrem coid : (m.removePendingOrder coid).trades = m.trades ∧
      (m.removePendingOrder coid).syntheticCounter = m.syntheticCounter := by
    unfold removePendingOrder
    split <;> exact ⟨rfl, rfl⟩
  have hreg coid sym side price qty fee :
      (m.registerPendingOrderWithCashFee coid sym side price qty fee).trades = m.trades ∧
        (m.registerPendingOrderWithCashFee coid sym side price qty fee).syntheticCounter =
          m.syntheticCounter := by
    unfold registerPendingOrderWithCashFee
    split
    · exact ⟨rfl, rfl⟩
    · split
      · exact ⟨rfl, rfl⟩
      · exact hrem coid
  refine syncPendingFromUpdate_rule (P := fun r =>
    r.trades = m.trades ∧ r.syntheticCounter = m.syntheticCounter) ⟨rfl, rfl⟩ hrem hreg
    fun order _ _ => ?_
  dsimp only
  split <;> exact ⟨rfl, rfl⟩

namespace Restorable

variable (h : m.Restorable) {u : OrderUpdate}
include h

lemma volume_nonneg (role : Bool) : 0 ≤ m.volumeOf role := by
  rw [h.volume]
  refine sumBy_nonneg fun e he => ?_
  exact volume_nonneg_of_validAmounts (h.trades e.1 e.2 (mem_entries_iff.1 he)).amounts

lemma volumeOk : VolumeOk m.trades role (m.volumeOf role) := by
  have hex : m.volumeOf role = m.trades.sumBy fun _ t => t.volume role := h.volume role
  rw [hex]
  exact le_max_of_le_left (by norm_num)

lemma accepted : m.snapshot.Accepted where
  version := rfl
  makerVolume := h.volume_nonneg true
  takerVolume := h.volume_nonneg false
  positions e he := by
    have hsym := h.positions e.1 (mem_keys.1 (mem_map_of_mem he))
    simp [checkPosition, hsym]
  trades e he := (h.trades e.1 e.2 (mem_entries_iff.1 he)).checkTrade
  maker := h.volumeOk
  taker := h.volumeOk
  pending e he := if_pos (h.pending e.1 e.2 (mem_entries_iff.1 he))

/-! ### Trades -/

lemma upsertTrade {push : TradeRecord} (hex : ∀ row ∈ m.trades.lookup push.tradeId,
      row.size * row.price = push.size * push.price) : (m.upsertTrade push).1.Restorable := by
  obtain ⟨-, hposs, hpend⟩ := m.upsertTrade_frame
  refine ⟨by rw [hposs]; exact h.positions, fun key t hkey => ?_,
    by rw [hpend]; exact h.pending, fun role => ?_⟩
  · rcases m.upsertTrade_cases with hsame | ⟨row, previous, hbooks⟩
    · rw [hsame] at hkey
      exact h.trades key t hkey
    · have hwritten : (m.upsertTrade push).1.trades = m.trades.insert push.tradeId row := by
        rw [hbooks.eq, trades_written]
      rw [hwritten] at hkey
      by_cases hne : key = push.tradeId
      · subst hne
        rw [lookup_insert] at hkey
        cases hkey
        -- A new trade was validated as a push; a known one only takes a new status.
        cases hbooks.advances with
        | first hnone _ =>
          rw [hbooks.first hnone]
          exact ⟨hbooks.tradeId, rfl, hbooks.assetId, hbooks.amounts, hbooks.fees,
            fun hunbound => (by cases hunbound)⟩
        | known old hold ht =>
          have hrest := h.trades _ old hold
          rw [ht]
          exact { hrest with  }
      · rw [lookup_insert_ne hne] at hkey
        exact h.trades key t hkey
  · have hdrift := m.volume_upsertTrade hex role
    rw [h.volume role, sub_self] at hdrift
    exact sub_eq_zero.1 hdrift

lemma attributeRestoredTradeFee (row : RestoredTrade) :
    (m.attributeRestoredTradeFee row).1.Restorable := by
  unfold PositionManager.attributeRestoredTradeFee
  split
  · exact h
  next trade htr =>
  dsimp only
  split
  · exact h
  next hprov =>
  push Not at hprov
  obtain ⟨-, -, hside, hmaker, -, -, hfees⟩ := hprov
  rw [← hside, ← hmaker] at hfees
  split
  · split <;> exact h
  split
  · exact h
  next queries hquer =>
  have hrest := h.trades _ trade htr
  have hnn := nonneg_of_acceptsFeeAmounts hfees
  refine ⟨h.positions, fun key t hkey => ?_, h.pending, fun role => ?_⟩
  · obtain ⟨hsize, hprice, hcap, -, -⟩ := hrest.amounts
    exact forall_lookup_insert ⟨hrest.keyed, hrest.tradeId, hrest.assetId,
      ⟨hsize, hprice, hcap, hnn.1, hnn.2⟩, hfees, nofun⟩ h.trades key t hkey
  · -- Fees are not part of the volume.
    change m.volumeOf role = (m.trades.insert _ _).sumBy _
    have hvol : (trade.withFee row).volume role = trade.volume role := rfl
    rw [sumBy_insert, valueAt_of_lookup htr, hvol, sub_self, add_zero]
    exact h.volume role

/-! ### Open orders -/

lemma removePendingOrder (coid : String) :
    (m.removePendingOrder coid).Restorable := by
  unfold PositionManager.removePendingOrder
  split
  · exact h
  · exact { h with pending := fun coid o ho => h.pending coid o (lookup_of_erase ho) }

lemma registerPendingOrderWithCashFee (coid sym : String)
    (side : Side) (price quantity cashFeePerShare : ℚ) :
    (m.registerPendingOrderWithCashFee coid sym side price quantity
      cashFeePerShare).Restorable := by
  unfold PositionManager.registerPendingOrderWithCashFee
  split
  · exact h
  next hfee =>
  split
  · exact h
  next hval =>
  have hrem := h.removePendingOrder coid
  push Not at hfee
  have hfields : validPendingOrderFields coid sym price quantity = true := by
    simpa using hval
  have hpos := pos_of_validPendingOrderFields sym hfields
  refine { hrem with
    pending := forall_lookup_insert ⟨rfl, hfields, hfee.1,
      fun hsell => hsell.2 (hfee.2 hsell.1), hpos.2.le, ?_⟩ hrem.pending }
  exact le_add_of_nonneg_right (by norm_num)

lemma applyPrivateTradeReservation (coid : String) (quantity : ℚ)
    (sign : ℤ) : (m.applyPrivateTradeReservation coid quantity sign).1.Restorable := by
  unfold PositionManager.applyPrivateTradeReservation
  split
  · exact h
  next hargs =>
  push Not at hargs
  split
  · exact h
  next order hord =>
  obtain ⟨-, hfields, -, -, hrem, hle⟩ := h.pending coid order hord
  have hpos := pos_of_validPendingOrderFields _ hfields
  have hqty : 0 < quantity := hargs.2.1
  refine { h with
    pending :=
      forall_lookup_insert (pendingOk_remaining (h.pending coid order hord) ?_ ?_) h.pending }
  · split
    · exact le_max_right _ _
    · exact le_min (by linarith) hpos.2.le
  · split
    · exact max_le (by linarith) (by linarith [hpos.2])
    · exact (min_le_right _ _).trans (by linarith)

lemma syncPendingFromUpdate (hfill : u.status = .partiallyFilled → 0 ≤ u.filledQuantity) :
    (m.syncPendingFromUpdate u).Restorable := by
  refine syncPendingFromUpdate_rule h h.removePendingOrder h.registerPendingOrderWithCashFee
    fun order hst hord => ?_
  have hok := h.pending _ order hord
  have hrem : PendingOk u.clientOrderId
      { order with remainingQuantity := max (order.remainingQuantity - u.filledQuantity) 0 } := by
    obtain ⟨-, hfields, -, -, hnn, hle⟩ := h.pending _ order hord
    have hfill' := hfill hst
    exact pendingOk_remaining hok (le_max_right _ _)
      (max_le (by linarith) (by linarith [(pos_of_validPendingOrderFields _ hfields).2]))
  have hins := forall_lookup_insert hrem h.pending
  dsimp only
  split
  · exact { h with pending := fun coid o ho => hins coid o (lookup_of_erase ho) }
  · exact { h with pending := hins }

/-! ### Runs that repeat the recorded amounts -/

lemma setCounter (counter : ℕ) :
    Restorable { m with syntheticCounter := counter } :=
  { h with }

lemma onOrderUpdate
    (hu : (Mutation.onOrderUpdate u).Repeats m) : (m.onOrderUpdate u).Restorable := by
  have hsync := h.syncPendingFromUpdate hu.1
  obtain ⟨htrs, hcounter⟩ := m.syncPendingFromUpdate_frame
  have hid : (m.syncPendingFromUpdate u).updateTradeId u = m.updateTradeId u := by
    unfold updateTradeId
    rw [hcounter]
  unfold PositionManager.onOrderUpdate
  split
  · exact hsync
  split
  · exact hsync
  next hfill =>
  split
  · exact h
  · dsimp only
    rw [hid]
    refine (hsync.setCounter _).upsertTrade ?_
    rw [htrs]
    exact hu.2 (not_le.1 hfill)

lemma adjustQuantity {sym : String}
    (hsym : isBlank sym = false) (delta : ℚ) : (m.adjustQuantity sym delta).Restorable := by
  refine { h with positions := fun other hne => ?_ }
  rcases (mem_insert _).1 hne with rfl | hmem
  · exact hsym
  · exact h.positions other hmem

/-- Mutations that repeat the recorded amounts keep a manager restorable. -/
lemma run (hop : op.Repeats m) : (op.run m).1.Restorable := by
  cases op with
  | enableIncrementalQueries =>
    change m.enableIncrementalQueries.Restorable
    unfold PositionManager.enableIncrementalQueries
    split
    · exact h
    · exact { h with }
  | upsertTrade push => exact h.upsertTrade hop
  | attributeRestoredTradeFee row => exact h.attributeRestoredTradeFee row
  | onOrderUpdate u => exact h.onOrderUpdate hop
  | syncPendingFromUpdate u => exact h.syncPendingFromUpdate hop
  | registerPendingOrder => exact h.registerPendingOrderWithCashFee ..
  | applyPrivateTradeReservation => exact h.applyPrivateTradeReservation ..
  | removePendingOrder coid => exact h.removePendingOrder coid
  | adjustBalance delta => exact { h with }
  | adjustQuantity sym delta => exact h.adjustQuantity hop delta

end Restorable

/-- One mutation of such a run. -/
def RepeatsStep (m : PositionManager) (op : Mutation) (m' : PositionManager) : Prop :=
  op.Repeats m ∧ m' = (op.run m).1

/-! ## Starting points -/

lemma restorable_withInitialQuantities {balance : ℚ} {initial : AList fun _ => ℚ}
    (hsyms : ∀ sym ∈ initial, isBlank sym = false) :
    (withInitialQuantities initial balance).Restorable := by
  refine ⟨hsyms, fun key t hkey => (by cases hkey), fun coid o hcoid => (by cases hcoid),
    fun role => ?_⟩
  cases role <;> rfl

end PositionManager

/-- A row of the account that leaves a restorable ledger: a live trade is booked, and its fees are
in the right currency and not charged before they are attributed. -/
structure RestoredTrade.Exact (row : RestoredTrade) : Prop where
  inCurrency : row.InCurrency
  booked : ∀ status, TradeStatus.fromPolymarketStr row.ownership.status = some status →
    status ≠ .failed → row.booked = true
  unbound : row.feeAttributed = false → row.usdcFee ≤ feeTolerance row.ownership.quantity ∧
    row.sharesFee ≤ feeTolerance row.ownership.quantity

lemma acceptsFeeAmounts_mono {usdcFee sharesFee tolerance tolerance' : ℚ}
    (hle : tolerance ≤ tolerance')
    (h : settlement.acceptsFeeAmounts side isMaker usdcFee sharesFee tolerance = true) :
    settlement.acceptsFeeAmounts side isMaker usdcFee sharesFee tolerance' = true := by
  unfold acceptsFeeAmounts at h ⊢
  split at h
  · cases h
  next hneg =>
  rw [if_neg hneg]
  split at h
  · next hmaker =>
    rw [if_pos hmaker]
    simp only [and_eq_true, decide_eq_true_eq] at h ⊢
    exact ⟨h.1.trans hle, h.2.trans hle⟩
  next hmaker =>
  rw [if_neg hmaker]
  cases settlement <;> cases side <;> simp only [decide_eq_true_eq] at h ⊢ <;>
    exact h.trans hle

namespace PositionManager

variable {m : PositionManager}

lemma feeTolerance_nonneg {size : ℚ} : 0 ≤ feeTolerance size :=
  le_max_of_le_left (by norm_num)

/-- A row either changes nothing or is written as a trade that restores, and a live trade adds its
notional to the volume of its role. -/
lemma restoreRow_cases (m : PositionManager) (hrow : row.Exact) :
    m.restoreRow row = m ∨ ∃ t, t.Restores row.ownership.tradeKey ∧
      (m.restoreRow row).trades = m.trades.insert row.ownership.tradeKey t ∧
      (∀ sym ∈ (m.restoreRow row).initPositions, sym = t.assetId ∨ sym ∈ m.initPositions) ∧
      ∀ role, (m.restoreRow row).volumeOf role = m.volumeOf role + t.volume role := by
  unfold restoreRow
  split
  · exact .inl rfl
  next status hst =>
  dsimp only
  split
  · exact .inl rfl
  next hval =>
  push Not at hval
  obtain ⟨hid, hasset, hamounts⟩ := hval
  have hrest : (row.record status).Restores row.ownership.tradeKey :=
    ⟨eq_false_iff.2 hid, rfl, eq_false_iff.2 hasset, hamounts,
      acceptsFeeAmounts_mono feeTolerance_nonneg hrow.inCurrency, hrow.unbound⟩
  refine .inr ⟨row.record status, hrest, ?_⟩
  by_cases hlive : status = .failed
  · -- A failed trade moves nothing.
    rw [if_neg fun hbook => hbook.2 hlive]
    refine ⟨rfl, fun sym hsym => .inr hsym, fun role => ?_⟩
    have hzero : (row.record status).volume role = 0 := if_neg fun hcounts => hcounts.1 hlive
    rw [hzero, add_zero]
    rfl
  · rw [if_pos ⟨hrow.booked status hst hlive, hlive⟩]
    have hvol role : (row.record status).volume role =
        if (row.record status).isMaker = role then
          (row.record status).size * (row.record status).price else 0 := by
      unfold TradeRecord.volume
      by_cases hrole : (row.record status).isMaker = role
      · rw [if_pos ⟨hlive, hrole⟩, if_pos hrole]
      · rw [if_neg fun hcounts => hrole hcounts.2, if_neg hrole]
    have hadd (n : PositionManager) (isMaker : Bool) (notional : ℚ) :
        (n.addVolume isMaker notional).trades = n.trades ∧
          (n.addVolume isMaker notional).initPositions = n.initPositions := by
      unfold addVolume
      split <;> exact ⟨rfl, rfl⟩
    refine ⟨?_, fun sym hsym => ?_, fun role => ?_⟩
    · dsimp only
      rw [(hadd _ _ _).1]
      rfl
    · change sym ∈ ((m.unbook _).addVolume _ _).initPositions at hsym
      rw [(hadd _ _ _).2] at hsym
      exact (mem_insert _).1 hsym
    · change ((m.unbook _).addVolume _ _).volumeOf role = _
      rw [volumeOf_addVolume, hvol]
      rfl

lemma Restorable.restoreRow (h : m.Restorable) (hrow : row.Exact)
    (hnew : row.ownership.tradeKey ∉ m.trades) : (m.restoreRow row).Restorable := by
  rcases m.restoreRow_cases hrow with hsame | ⟨t, hrest, htrs, hposs, hvol⟩
  · rw [hsame]
    exact h
  constructor
  · intro sym hsym
    rcases hposs sym hsym with rfl | hold
    · exact hrest.assetId
    · exact h.positions sym hold
  · rw [htrs]
    exact forall_lookup_insert hrest h.trades
  · rw [(m.restoreRow_fields).2.1]
    exact h.pending
  · intro role
    rw [hvol, ledgerVolume, htrs, sumBy_insert_of_notMem _ _ _ _ hnew, h.volume role]
    rfl

/-- The ways to start a manager whose symbols have names, whose restored rows are exact and whose
stored volumes are those of its trades. -/
inductive ExactlyStarted : PositionManager → Prop
  | new : ExactlyStarted .new
  | withInitialQuantities (initial : AList fun _ : String => ℚ) (balance : ℚ)
    (hsymbols : ∀ symbol ∈ initial, isBlank symbol = false) :
    ExactlyStarted (.withInitialQuantities initial balance)
  | restored (positions : AList fun _ : String => ℚ) (balance : ℚ) (rows : List RestoredTrade)
    (hsymbols : ∀ symbol ∈ positions, isBlank symbol = false) (hrows : ∀ row ∈ rows, row.Exact)
    (hkeys : (rows.map (·.ownership.tradeKey)).Nodup) :
    ExactlyStarted (.withPositionsAndRestoredTrades positions balance rows)
  | fromSnapshot (s : PositionManagerSnapshot) (m : PositionManager)
    (hm : PositionManager.fromSnapshot s = .ok m)
    (hfees : ∀ key t, s.trades.lookup key = some t → t.AcceptsFees 0 ∧ (t.feeAttributed = false →
      t.usdcFee ≤ feeTolerance t.size ∧ t.sharesFee ≤ feeTolerance t.size))
    (hvolume : ∀ role, m.volumeOf role = m.ledgerVolume role) : ExactlyStarted m

lemma ExactlyStarted.started (h : ExactlyStarted m) : Started m := by
  cases h with
  | new => exact .new
  | withInitialQuantities initial balance hsyms => exact .withInitialQuantities initial balance
  | restored posns balance rows hsyms hrows hkeys =>
    exact .restored posns balance rows fun row hrow => (hrows row hrow).inCurrency
  | fromSnapshot s m hm hfees hvol =>
    exact .fromSnapshot s m hm fun key t hkey => (hfees key t hkey).1

lemma ExactlyStarted.restorable (h : ExactlyStarted m) : m.Restorable := by
  cases h with
  | new => exact restorable_withInitialQuantities fun sym hsym =>
      absurd hsym (notMem_empty sym)
  | withInitialQuantities initial balance hsyms => exact restorable_withInitialQuantities hsyms
  | restored posns balance rows hsyms hrows hkeys =>
    unfold withPositionsAndRestoredTrades
    have hstart : (PositionManager.withInitialQuantities posns balance).Restorable :=
      restorable_withInitialQuantities hsyms
    have hnew : ∀ row ∈ rows,
        row.ownership.tradeKey ∉ (PositionManager.withInitialQuantities posns balance).trades :=
      fun row _ => notMem_empty _
    generalize PositionManager.withInitialQuantities posns balance = start at hstart hnew
    -- Keys of the rows still to come are not in the ledger yet.
    induction rows generalizing start with
    | nil => exact hstart
    | cons row rows ih =>
      obtain ⟨hfirst, hrest⟩ := nodup_cons.1 hkeys
      refine ih (fun r hr => hrows r (.tail _ hr)) hrest _
        (hstart.restoreRow (hrows row (.head _)) (hnew row (.head _)))
        fun r hr hmem => ?_
      have hold := hnew r (.tail _ hr)
      rcases start.restoreRow_fields.2.2 with hsame | ⟨status, hins⟩
      · rw [hsame] at hmem
        exact hold hmem
      · rw [hins] at hmem
        rcases (mem_insert _).1 hmem with hkey | hmem
        · exact hfirst (mem_map.2 ⟨r, hr, hkey⟩)
        · exact hold hmem
  | fromSnapshot s m hm hfees hvol =>
    obtain ⟨hacc, rfl⟩ := fromSnapshot_eq_ok_iff.1 hm
    refine ⟨fun sym hsym => ?_, fun key t hkey => ?_, fun coid o hcoid => ?_, hvol⟩
    · obtain ⟨e, he, rfl⟩ := mem_map.1 (mem_keys.2 hsym)
      have hcheck := hacc.positions e he
      unfold checkPosition at hcheck
      split at hcheck
      · cases hcheck
      · next hnamed => exact eq_false_iff.2 hnamed
    · have hcheck := hacc.trades ⟨key, t⟩ (mem_entries_iff.2 hkey)
      unfold checkTrade at hcheck
      split at hcheck
      · cases hcheck
      next hfields =>
      split at hcheck
      · cases hcheck
      next hfits =>
      push Not at hfields
      exact ⟨eq_false_iff.2 hfields.1, hfields.2.1, eq_false_iff.2 hfields.2.2.1,
        hfields.2.2.2, not_not.1 hfits, (hfees key t hkey).2⟩
    · have hcheck := hacc.pending ⟨coid, o⟩ (mem_entries_iff.2 hcoid)
      unfold checkPending at hcheck
      split at hcheck
      · assumption
      · cases hcheck

/-! ## Round trip -/

/-- A manager that an exact run leaves can be restored from its snapshot. The restored manager
answers every query like the original and replies alike to every later run. -/
theorem snapshot_roundtrip (start : PositionManager) (hstart : ExactlyStarted start)
    (ops : List Mutation) (m : PositionManager) (hrun : Trace RepeatsStep start ops m) :
    ∃ n, fromSnapshot m.snapshot = .ok n ∧ m.Agree n ∧
      ∀ later : List Mutation, (∀ op ∈ later, op.InCurrency) →
        n.replies later = m.replies later ∧ (m.runAll later).Agree (n.runAll later) := by
  have hinv : m.Restorable ∧ m.Sound := by
    refine hrun.invariant (P := fun m => m.Restorable ∧ m.Sound) ?_
      ⟨hstart.restorable, hstart.started.sound⟩
    rintro s op s' ⟨hrest, hsound⟩ ⟨hop, rfl⟩
    exact ⟨hrest.run hop, hsound.run hop.inCurrency⟩
  obtain ⟨hrest, hsound⟩ := hinv
  -- The manager comes back without its index.
  refine ⟨m.plain, fromSnapshot_eq_ok_iff.2 ⟨hrest.accepted, rfl⟩,
    agree_of_plain hsound hsound.plain rfl, fun later hlater => ?_⟩
  obtain ⟨hrepl, htables⟩ := replies_eq_of_plain hsound hsound.plain plain_plain.symm hlater
  exact ⟨hrepl.symm, agree_of_plain (hsound.runAll hlater) (hsound.plain.runAll hlater) htables⟩

/-- A buy that is matched and then fails, with a size that the failure may report differently. -/
def reversalPush (status : TradeStatus) (size : ℚ) : Mutation :=
  .upsertTrade ⟨"t1", "UP", .buy, size, 1 / 2, status, false, 0, 0, .legacyV1, true⟩

theorem snapshot_roundtrip_reversal :
    ∃ n, fromSnapshot (new.runAll [reversalPush .matched 1, reversalPush .failed 1]).snapshot =
        .ok n ∧
      (new.runAll [reversalPush .matched 1, reversalPush .failed 1]).Agree n := by
  have hrun : Trace RepeatsStep new [reversalPush .matched 1, reversalPush .failed 1]
      (new.runAll [reversalPush .matched 1, reversalPush .failed 1]) := by
    have hmatc : (new.runAll [reversalPush .matched 1]).trades.lookup "t1" =
        some ⟨"t1", "UP", .buy, 1, 1 / 2, .matched, false, 0, 0, .legacyV1, true⟩ := by
      decide +kernel
    refine .cons ⟨fun row hrow => (by cases hrow), rfl⟩ (.cons ⟨fun row hrow => ?_, rfl⟩ (.nil _))
    cases hmatc.symm.trans hrow
    rfl
  obtain ⟨n, hn, hagree, -⟩ := snapshot_roundtrip new .new _ _ hrun
  exact ⟨n, hn, hagree⟩

/-- The failure reports a size that is larger by no more than the tolerance. It subtracts more
volume than the match added, and the snapshot with the negative volume is refused. -/
theorem reversal_breaks_snapshot :
    let m := new.runAll [reversalPush .matched 1, reversalPush .failed (1 + 1 / 10 ^ 8)]
    m.takerVolume = -1 / (2 * 10 ^ 8) ∧ ∀ n, fromSnapshot m.snapshot ≠ .ok n := by
  intro m
  have hvol : m.takerVolume = -1 / (2 * 10 ^ 8) := by decide +kernel
  refine ⟨hvol, fun n hn => ?_⟩
  have hnn : 0 ≤ m.takerVolume := (fromSnapshot_eq_ok_iff.1 hn).1.takerVolume
  rw [hvol] at hnn
  norm_num at hnn

end PositionManager

end HexAgent.Position
