import HexAgent.Position.Ledger

/-!
# Restoring a position ledger

A manager starts empty, from the balances and trade rows of the account, or from a snapshot.
Restoring a snapshot recomputes the volumes from the trades and refuses a snapshot whose volumes
differ by more than a tolerance.
-/

namespace HexAgent.Position

/-! ## Rows of the account -/

/-- The row that a restored trade gets. -/
def RestoredTrade.record (row : RestoredTrade) (status : TradeStatus) : TradeRecord where
  tradeId := row.ownership.tradeKey
  assetId := row.ownership.tokenId
  side := row.ownership.side
  size := row.ownership.quantity
  price := row.ownership.price
  status := status
  isMaker := row.isMaker
  usdcFee := row.usdcFee
  sharesFee := row.sharesFee
  feeSettlement := row.feeSettlement
  feeAttributed := row.feeAttributed

namespace PositionManager

/-- A booked trade is already in the balances that the manager starts from: take it out of them, so
that its row puts it back. -/
def unbook (m : PositionManager) (trade : TradeRecord) : PositionManager :=
  { m with
    initBalance := m.initBalance - trade.cash
    initPositions :=
      m.initPositions.insert trade.assetId (m.initialQuantity trade.assetId - trade.quantity) }

/-- One row of `with_positions_and_restored_trades`. -/
def restoreRow (m : PositionManager) (row : RestoredTrade) : PositionManager :=
  match TradeStatus.fromPolymarketStr row.ownership.status with
  | none => m
  | some status =>
    let trade := row.record status
    if isBlank trade.tradeId ∨ isBlank trade.assetId ∨ ¬trade.ValidAmounts then m
    else
      let m := if row.booked ∧ status ≠ .failed then
          (m.unbook trade).addVolume trade.isMaker (trade.size * trade.price)
        else m
      { m with trades := m.trades.insert trade.tradeId trade }

def withPositionsAndRestoredTrades (positions : AList fun _ : String => ℚ) (balance : ℚ)
    (rows : List RestoredTrade) : PositionManager :=
  rows.foldl restoreRow (withInitialQuantities positions balance)

end PositionManager

/-! ## Snapshots -/

structure PositionManagerSnapshot where
  version : ℕ
  initBalance : ℚ
  initPositions : AList fun _ : String => ℚ
  trades : AList fun _ : String => TradeRecord
  pendingOrders : AList fun _ : String => PendingOrder
  syntheticCounter : ℕ
  makerVolume : ℚ
  takerVolume : ℚ

/-- Notional that a trade adds to the volume of a role. -/
def TradeRecord.volume (isMaker : Bool) (t : TradeRecord) : ℚ :=
  if t.status ≠ .failed ∧ t.isMaker = isMaker then t.size * t.price else 0

namespace PositionManagerSnapshot

/-- The checks on an initial position. -/
def checkPosition (symbol : String) : Except String Unit :=
  if isBlank symbol then .error "snapshot contains invalid initial position" else .ok ()

/-- The checks on a trade. -/
def checkTrade (tradeId : String) (trade : TradeRecord) : Except String Unit :=
  if isBlank tradeId ∨ trade.tradeId ≠ tradeId ∨ isBlank trade.assetId ∨ ¬trade.ValidAmounts then
    .error s!"snapshot contains invalid trade {tradeId}"
  else if ¬trade.AcceptsFees (feeTolerance trade.size) then
    .error s!"snapshot trade {tradeId} has fee in the wrong role/currency"
  else if ¬trade.feeAttributed ∧ trade.status ≠ .failed ∧
      (feeTolerance trade.size < trade.usdcFee ∨ feeTolerance trade.size < trade.sharesFee) then
    .error s!"snapshot trade {tradeId} has fees without attribution"
  else .ok ()

/-- The fields of an open order make sense. -/
def PendingOk (coid : String) (order : PendingOrder) : Prop :=
  order.clientOrderId = coid ∧
    validPendingOrderFields coid order.symbol order.price order.originalQuantity = true ∧
    0 ≤ order.cashFeePerShare ∧ ¬(order.side = .sell ∧ order.cashFeePerShare ≠ 0) ∧
    0 ≤ order.remainingQuantity ∧ order.remainingQuantity ≤ order.originalQuantity + 1 / 10 ^ 8

instance (coid : String) (order : PendingOrder) : Decidable (PendingOk coid order) :=
  inferInstanceAs (Decidable (_ ∧ _))

/-- The checks on an open order. -/
def checkPending (coid : String) (order : PendingOrder) : Except String Unit :=
  if PendingOk coid order then .ok ()
  else .error s!"snapshot contains invalid pending order {coid}"

/-- Accepted difference between a stored and a recomputed volume. -/
def volumeTolerance (stored expected : ℚ) : ℚ :=
  max (1 / 10 ^ 8) (max |stored| |expected| * (1 / 10 ^ 10))

/-- A stored volume agrees with the trades. -/
def VolumeOk (trades : AList fun _ : String => TradeRecord) (isMaker : Bool) (stored : ℚ) : Prop :=
  let expected := trades.sumBy fun _ t => t.volume isMaker
  |stored - expected| ≤ volumeTolerance stored expected

instance (trades : AList fun _ : String => TradeRecord) (isMaker : Bool) (stored : ℚ) :
    Decidable (VolumeOk trades isMaker stored) := inferInstanceAs (Decidable (_ ≤ _))

/-- The manager that a snapshot describes. -/
def manager (s : PositionManagerSnapshot) : PositionManager where
  initBalance := s.initBalance
  initPositions := s.initPositions
  trades := s.trades
  pendingOrders := s.pendingOrders
  syntheticCounter := s.syntheticCounter
  makerVolume := s.makerVolume
  takerVolume := s.takerVolume
  incrementalQueries := none

/-- All checks of `from_snapshot` pass. -/
structure Accepted (s : PositionManagerSnapshot) : Prop where
  version : s.version = 1
  makerVolume : 0 ≤ s.makerVolume
  takerVolume : 0 ≤ s.takerVolume
  positions : ∀ e ∈ s.initPositions.entries, checkPosition e.1 = .ok ()
  trades : ∀ e ∈ s.trades.entries, checkTrade e.1 e.2 = .ok ()
  maker : VolumeOk s.trades true s.makerVolume
  taker : VolumeOk s.trades false s.takerVolume
  pending : ∀ e ∈ s.pendingOrders.entries, checkPending e.1 e.2 = .ok ()

end PositionManagerSnapshot

namespace PositionManager

open PositionManagerSnapshot

def snapshot (m : PositionManager) : PositionManagerSnapshot where
  version := 1
  initBalance := m.initBalance
  initPositions := m.initPositions
  trades := m.trades
  pendingOrders := m.pendingOrders
  syntheticCounter := m.syntheticCounter
  makerVolume := m.makerVolume
  takerVolume := m.takerVolume

def fromSnapshot (s : PositionManagerSnapshot) : Except String PositionManager := do
  if s.version ≠ 1 then
    throw s!"unsupported PositionManager snapshot version {s.version}"
  if s.makerVolume < 0 ∨ s.takerVolume < 0 then
    throw "snapshot contains invalid balance or volume"
  s.initPositions.entries.forM fun e => checkPosition e.1
  s.trades.entries.forM fun e => checkTrade e.1 e.2
  if ¬VolumeOk s.trades true s.makerVolume ∨ ¬VolumeOk s.trades false s.takerVolume then
    throw "snapshot maker/taker volume disagrees with durable trades"
  s.pendingOrders.entries.forM fun e => checkPending e.1 e.2
  return s.manager

/-! ### What is accepted -/

lemma forM_eq_ok {β : Type*} {f : β → Except String Unit} {l : List β} :
    l.forM f = .ok () ↔ ∀ e ∈ l, f e = .ok () := by
  induction l with
  | nil => exact iff_of_true rfl fun e he => absurd he List.not_mem_nil
  | cons e l ih =>
    rw [List.forall_mem_cons, ← ih]
    change (f e >>= fun _ => l.forM f) = .ok () ↔ _
    cases f e with
    | error text => exact iff_of_false nofun fun h => by cases h.1
    | ok value => exact ⟨fun h => ⟨rfl, h⟩, fun h => h.2⟩

lemma fromSnapshot_eq_ok_iff {s : PositionManagerSnapshot} {m : PositionManager} :
    fromSnapshot s = .ok m ↔ s.Accepted ∧ m = s.manager := by
  have hbind {α : Type} x (y : Unit → Except String α) (a : α) :
      x >>= y = .ok a ↔ x = .ok () ∧ y () = .ok a := by
    cases x with
    | error text => exact iff_of_false nofun fun h => by cases h.1
    | ok value => exact ⟨fun h => ⟨rfl, h⟩, fun h => h.2⟩
  unfold fromSnapshot
  by_cases hvers : s.version ≠ 1
  · rw [if_pos hvers]
    exact iff_of_false nofun fun h => hvers h.1.version
  rw [if_neg hvers]
  by_cases hvol : s.makerVolume < 0 ∨ s.takerVolume < 0
  · rw [if_pos hvol]
    refine iff_of_false nofun fun h => ?_
    exact absurd hvol (not_or_intro h.1.makerVolume.not_gt h.1.takerVolume.not_gt)
  rw [if_neg hvol]
  rw [hbind, hbind, forM_eq_ok, forM_eq_ok]
  push Not at hvers hvol
  by_cases hagree : ¬VolumeOk s.trades true s.makerVolume ∨ ¬VolumeOk s.trades false s.takerVolume
  · rw [if_pos hagree]
    refine iff_of_false (fun h => by cases h.2.2) fun h => ?_
    exact absurd hagree (not_or_intro (not_not_intro h.1.maker) (not_not_intro h.1.taker))
  rw [if_neg hagree, hbind, forM_eq_ok]
  push Not at hagree
  constructor
  · rintro ⟨hposs, htrs, hpend, hm⟩
    exact ⟨⟨hvers, hvol.1, hvol.2, hposs, htrs, hagree.1, hagree.2, hpend⟩, (Except.ok.inj hm).symm⟩
  · rintro ⟨hacc, rfl⟩
    exact ⟨hacc.positions, hacc.trades, hacc.pending, rfl⟩

end PositionManager

end HexAgent.Position
