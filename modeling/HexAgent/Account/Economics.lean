import HexAgent.Account.Run
import Mathlib.Algebra.Group.Prod

/-!
# Economic replay of trades

The balances of an instance are kept by additions on counters, edge by edge. The ledger also
replays them from the immutable seed: every trade row has an economic effect, and the balances
should be the seed plus the effects of all rows.

This module defines the replay and what one written row does to it. Orders are settled without
touching balances or trades (`books_step`), so only trade edges matter.
-/

namespace HexAgent.Account

open AppliedTrade AList

variable (coid token : String)

/-! ## The replay -/

/-- Cash and tokens of one instance. -/
@[ext] structure EconomicBalance where
  cash : ℚ
  positions : String → ℚ

/-- Cash and tokens that a leg exchanges. -/
def TradeOwnership.principal (ownership : TradeOwnership) : ℚ × ℚ :=
  let sign : ℚ := if ownership.side = .buy then 1 else -1
  (-sign * ownership.quantity * ownership.price, sign * ownership.quantity)

variable (trade : AppliedTrade)

/-- `trade_economic_effect`, for the instance that owns the trade. -/
def tradeEconomicEffect : EconomicBalance :=
  if trade.failed then ⟨0, fun _ => 0⟩
  else
    let principal := if trade.booked then trade.ownership.principal else (0, 0)
    let fee := if trade.virtualFeeBooked then (trade.usdcFee, trade.sharesFee) else (0, 0)
    { cash := principal.1 - fee.1
      positions := fun token =>
        if token = trade.ownership.tokenId then principal.2 - fee.2 else 0 }

/-- `replay_account_economics`: the seed and the effects of the trades. -/
def replayAccountEconomics (seed : EconomicBalance)
    (trades : AList fun _ : String => AppliedTrade) :
    EconomicBalance where
  cash := seed.cash + trades.sumBy fun _ trade => (tradeEconomicEffect trade).cash
  positions token :=
    seed.positions token + trades.sumBy fun _ trade => (tradeEconomicEffect trade).positions token

/-- Balances of the shard. -/
def VirtualAccount.economics (a : VirtualAccount) : EconomicBalance where
  cash := a.cash
  positions token := (a.position token).balance

/-! ## Assets

Cash and the tokens are treated alike: `none` is cash and `some token` a token. -/

/-- Amount of one asset. -/
def EconomicBalance.amount (balance : EconomicBalance) : Option String → ℚ
  | none => balance.cash
  | some token => balance.positions token

/-- A movement of cash and of one token, as amounts of every asset. -/
def movement (token : String) (delta : ℚ × ℚ) : Option String → ℚ
  | none => delta.1
  | some other => if other = token then delta.2 else 0

lemma movement_add (x y : ℚ × ℚ) (asset : Option String) :
    movement token (x + y) asset = movement token x asset + movement token y asset := by
  cases asset with
  | none => rfl
  | some other =>
    simp only [movement]
    split
    · rfl
    · rw [add_zero]

lemma movement_zero (asset : Option String) : movement token 0 asset = 0 := by
  cases asset with
  | none => rfl
  | some other => simp [movement]

/-- What a row has moved: its principal while it is booked, less its fee while that is booked. -/
def AppliedTrade.moved : ℚ × ℚ :=
  (if trade.booked then trade.ownership.principal else 0) -
    if trade.virtualFeeBooked then (trade.usdcFee, trade.sharesFee) else 0

/-- What a row has moved, by asset. -/
def AppliedTrade.ledgerEffect (asset : Option String) : ℚ :=
  movement trade.ownership.tokenId trade.moved asset

/-- Nothing of a failed row is left in the balances. -/
def LedgerRow : Prop :=
  trade.failed = true → trade.booked = false ∧ trade.virtualFeeBooked = false

lemma LedgerRow.amount_effect {trade : AppliedTrade} (h : LedgerRow trade) {asset : Option String} :
    (tradeEconomicEffect trade).amount asset = trade.ledgerEffect asset := by
  cases hfail : trade.failed with
  | true =>
    obtain ⟨hbook, hfee⟩ := h hfail
    have hmoved : trade.moved = 0 := by simp [moved, hbook, hfee]
    rw [ledgerEffect, hmoved, movement_zero]
    cases asset <;> simp [tradeEconomicEffect, hfail, EconomicBalance.amount]
  | false =>
    cases asset <;> cases hbook : trade.booked <;> cases hfee : trade.virtualFeeBooked <;>
      simp [tradeEconomicEffect, hfail, hbook, hfee, EconomicBalance.amount, movement,
        ledgerEffect, moved]

/-- The balances are the seed and what the rows have moved. -/
def VirtualAccount.Ledger (seed : Option String → ℚ) (a : VirtualAccount) : Prop :=
  ∀ asset, a.economics.amount asset =
    seed asset + a.trades.sumBy fun _ trade => trade.ledgerEffect asset

/-! ## What leaves the books alone -/

namespace VirtualAccount

variable (order : OrderOwnership) (pending : Bool) {a b : VirtualAccount} {N : Numerics}

/-- Balances and trade rows. -/
def books (a : VirtualAccount) : EconomicBalance × AList fun _ : String => AppliedTrade :=
  (a.economics, a.trades)

lemma books_congr (h : (b.cash, b.positions, b.trades) = (a.cash, a.positions, a.trades)) :
    b.books = a.books := by
  simp only [Prod.mk.injEq] at h
  simp only [books, economics, position, h]

/-- Writing a quota with the same balance leaves the books alone. -/
lemma books_setPosition {token : String} {quota : VirtualPositionQuota}
    (h : quota.balance = (a.position token).balance) :
    (a.setPosition token quota).books = a.books := by
  refine Prod.ext (EconomicBalance.ext rfl ?_) rfl
  funext other
  show ((a.setPosition token quota).position other).balance = (a.position other).balance
  rw [position_setPosition]
  split
  · next ho => rw [ho, h]
  · rfl

@[simp] lemma books_setOrder : (a.setOrder coid order).books = a.books :=
  books_congr rfl

@[simp] lemma books_setRecovery : (a.setRecovery coid pending).books = a.books :=
  books_congr rfl

@[simp] lemma books_clearStartupRepair : (a.clearStartupRepair coid).books = a.books :=
  books_congr rfl

@[simp] lemma books_setRoutineAudit : (a.setRoutineAudit coid pending).books = a.books :=
  books_congr rfl

@[simp] lemma books_setCancelAuditAnomaly (present : Bool) :
    (a.setCancelAuditAnomaly coid present).books = a.books :=
  books_congr rfl

@[simp] lemma books_setFeePending {key : String} {pending : Bool} :
    (a.setFeePending key pending).books = a.books :=
  books_congr rfl

@[simp] lemma books_bumpReservationEpoch : a.bumpReservationEpoch.books = a.books :=
  books_congr rfl

@[simp] lemma books_record {tradeKey coid token : String} :
    (a.recordVirtualTradeMutation tradeKey coid token).books = a.books :=
  books_congr rfl

@[simp] lemma books_adjustReservation (cashDelta delta : ℚ) :
    (a.adjustReservation N token cashDelta delta).books = a.books := by
  have hcash : (a.adjustReservedCash N cashDelta).books = a.books := by
    unfold adjustReservedCash
    split
    · exact books_congr rfl
    · rfl
  unfold adjustReservation adjustReservedPosition
  split
  · refine Eq.trans ?_ hcash
    exact books_setPosition rfl
  · exact hcash

@[simp] lemma books_rewriteOrder (old new : OrderOwnership) :
    (a.rewriteOrder N coid old new).books = a.books := by
  rw [rewriteOrder, books_adjustReservation, books_setOrder]

@[simp] lemma books_release : (a.releaseVirtualOrderReservation N coid).books = a.books := by
  unfold releaseVirtualOrderReservation
  split
  · rfl
  · rw [books_rewriteOrder]

@[simp] lemma books_raiseToMinimum : (a.raiseToMinimum N token).books = a.books :=
  books_setPosition rfl

@[simp] lemma books_applyAudit (audited : OrderOwnership) :
    (a.applyAudit N coid order audited).2.books = a.books := by
  unfold applyAudit
  dsimp only
  split <;> simp

@[simp] lemma books_cancelledPendingAudit :
    (a.cancelledPendingAudit coid order).2.books = a.books := by
  unfold cancelledPendingAudit
  split <;> simp

lemma books_tryReserve {r : OrderRequest} (h : a.tryReserve N r = .ok b) : b.books = a.books :=
  tryReserve_rule (P := fun c => c.books = a.books) h (fun _ => books_congr rfl)
    fun _ _ hc => .trans (books_setPosition rfl) hc

end VirtualAccount

namespace AccountState

open VirtualAccount

variable {N : Numerics} {s : AccountState}

lemma books_markCancelledPendingTradeAudit {matched : ℚ} :
    (s.markCancelledPendingTradeAudit N coid matched).2.account.books = s.account.books := by
  unfold markCancelledPendingTradeAudit
  split
  · rfl
  dsimp only
  split
  · simp
  split <;> simp

/-- Operations on orders leave balances and trades alone. -/
lemma books_step {op : LifecycleOp} (hop : ∀ e, op ≠ .trade e) :
    (s.step N op).account.books = s.account.books := by
  cases op with
  | environment registry => rfl
  | reserveOrder req allow =>
    refine reserveOrder_rule (P := (books · = s.account.books)) rfl fun a _ _ _ _ ha => ?_
    rw [books_bumpReservationEpoch, books_setOrder, books_tryReserve ha]
  | registerPreparedOrder owned =>
    refine registerPreparedOrder_rule (P := (books · = s.account.books)) rfl fun _ _ _ => ?_
    rw [books_bumpReservationEpoch, books_adjustReservation, books_setOrder]
  | backfillOrderOwnership owned =>
    refine backfillOrderOwnership_rule (P := (books · = s.account.books)) rfl fun _ _ => ?_
    rw [books_bumpReservationEpoch, books_raiseToMinimum, books_setOrder]
  | rebindOrderId coid oid =>
    exact rebindOrderId_rule (P := (books · = s.account.books)) rfl fun _ _ _ => by simp
  | markOrderStatus coid status allow =>
    refine withOrder_rule (P := (books · = s.account.books)) rfl fun order _ _ => ?_
    split <;> simp
  | markFilledPendingAudit coid =>
    refine withOrder_rule (P := (books · = s.account.books)) rfl fun order _ _ => ?_
    rw [books_record]
    split <;> simp
  | authoritativeAudit coid status audit | zeroFillRecovery expected =>
    exact authoritativeAudit_rule (P := (books · = s.account.books)) rfl fun _ _ _ _ _ => by simp
  | inferNullCancellation expected | confirmRecoveryCancellation expected =>
    refine withOrder_rule (P := (books · = s.account.books)) rfl fun order _ _ => ?_
    split
    · rfl
    split <;> simp
  | markCancelledPendingTradeAudit coid matched =>
    exact books_markCancelledPendingTradeAudit coid
  | markCancelledPendingAudit coid | releaseOrder coid status =>
    exact withOrder_rule (P := (books · = s.account.books)) rfl fun _ _ _ => by simp
  | trade edge => exact absurd rfl (hop edge)

end AccountState

/-! ## Movements -/

/-- The balances are enough for a movement of cash and of one token. -/
def EconomicBalance.Covers (balance : EconomicBalance) (token : String) (delta : ℚ × ℚ) : Prop :=
  0 ≤ balance.cash + delta.1 ∧ 0 ≤ balance.positions token + delta.2

instance (balance : EconomicBalance) (token : String) (delta : ℚ × ℚ) :
    Decidable (balance.Covers token delta) :=
  inferInstanceAs (Decidable (_ ∧ _))

/-- Two movements after each other. -/
lemma EconomicBalance.Covers.after {token : String} {x y : EconomicBalance} {moved delta : ℚ × ℚ}
    (h : x.Covers token (moved + delta))
    (hmove : ∀ asset, y.amount asset = x.amount asset + movement token moved asset) :
    y.Covers token delta := by
  have hcash : y.cash = x.cash + moved.1 := hmove none
  have hpos : y.positions token = x.positions token + moved.2 := by
    simpa [EconomicBalance.amount, movement] using hmove (some token)
  rw [Covers, hcash, hpos, add_assoc, add_assoc]
  exact h

namespace VirtualAccount

variable {a : VirtualAccount} {N : Numerics}

/-- A movement that is covered is not clamped. -/
lemma amount_move {token : String} (hadd : N.addBalance = AtomicF64.add) {delta : ℚ × ℚ}
    (hcov : a.economics.Covers token delta) (asset : Option String) :
    ((a.addCash N delta.1).addPosition N token delta.2).economics.amount asset =
      a.economics.amount asset + movement token delta asset := by
  cases asset with
  | none =>
    show N.addBalance a.cash delta.1 = a.cash + delta.1
    rw [hadd]
    exact max_eq_left hcov.1
  | some other =>
    show ((VirtualAccount.setPosition _ token _).position other).balance =
      (a.position other).balance + if other = token then delta.2 else 0
    rw [position_setPosition]
    split
    · next h =>
      subst h
      show N.addBalance (a.position other).balance delta.2 = _
      rw [hadd]
      exact max_eq_left hcov.2
    · rw [add_zero]
      rfl

end VirtualAccount

/-! ## Row steps -/

/-- One row was written, and the balances moved by the change of what that row has moved. -/
structure RowStep (a b : VirtualAccount) (key : String) (t : AppliedTrade) : Prop where
  lookup : ∀ k, b.trades.lookup k = if k = key then some t else a.trades.lookup k
  balances : ∀ asset, b.economics.amount asset = a.economics.amount asset +
    (t.ledgerEffect asset - (a.trades.lookup key).elim 0 (·.ledgerEffect asset))

namespace RowStep

variable {a b c : VirtualAccount} {key : String} {t t' : AppliedTrade}

lemma lookup_self (h : RowStep a b key t) : b.trades.lookup key = some t := by
  rw [h.lookup, if_pos rfl]

lemma refl (h : a.trades.lookup key = some t) : RowStep a a key t where
  lookup k := by
    split
    · next hk => rw [hk, h]
    · rfl
  balances asset := by
    rw [h]
    exact (add_sub_cancel_right _ _).symm.trans (add_sub_assoc _ _ _)

/-- A row that is written into the map. -/
lemma insert (htrs : b.trades = a.trades.insert key t)
    (hbal : ∀ asset, b.economics.amount asset = a.economics.amount asset +
      (t.ledgerEffect asset - (a.trades.lookup key).elim 0 (·.ledgerEffect asset))) :
    RowStep a b key t where
  lookup k := by
    rw [htrs]
    split
    · next hk => rw [hk, lookup_insert]
    · next hk => rw [lookup_insert_ne hk]
  balances := hbal

/-- A row rewritten without changing what it has moved. -/
lemma rewrite (hget : a.trades.lookup key = some t)
    (heff : ∀ asset, t'.ledgerEffect asset = t.ledgerEffect asset) :
    RowStep a (a.setTrade key t') key t' :=
  insert rfl fun asset => by
    rw [hget]
    show _ = _ + (t'.ledgerEffect asset - t.ledgerEffect asset)
    rw [heff, sub_self, add_zero]
    rfl

/-- Balances that moved with a new row. -/
lemma setTrade {delta : ℚ × ℚ} (key : String) (hmove : ∀ asset, b.economics.amount asset =
      a.economics.amount asset + movement t'.ownership.tokenId delta asset)
    (htrs : b.trades = a.trades)
    (htok : ∀ t, a.trades.lookup key = some t → t.ownership.tokenId = t'.ownership.tokenId)
    (hmoved : t'.moved = (a.trades.lookup key).elim 0 (·.moved) + delta) :
    RowStep a (b.setTrade key t') key t' := by
  refine insert (by rw [VirtualAccount.setTrade, htrs]) fun asset => ?_
  rw [show (b.setTrade key t').economics = b.economics from rfl, hmove,
    ledgerEffect, hmoved, movement_add]
  cases hget : a.trades.lookup key with
  | none =>
    show _ = _ + (movement _ 0 asset + _ - 0)
    rw [movement_zero, zero_add, sub_zero]
  | some t =>
    show _ = _ + (movement _ t.moved asset + _ - movement t.ownership.tokenId t.moved asset)
    rw [htok t hget]
    ring

variable (h : RowStep a b key t)
include h

lemma trans (h' : RowStep b c key t') : RowStep a c key t' where
  lookup k := by
    rw [h'.lookup, h.lookup]
    split <;> rfl
  balances asset := by
    rw [h'.balances, h.balances, h.lookup_self]
    show _ + (t'.ledgerEffect asset - t.ledgerEffect asset) = _
    ring

lemma congr (hbooks : c.books = b.books) : RowStep a c key t := by
  have heconomics : c.economics = b.economics := congrArg Prod.fst hbooks
  have htrs : c.trades = b.trades := congrArg Prod.snd hbooks
  exact ⟨htrs ▸ h.lookup, heconomics ▸ h.balances⟩

/-- The ledger follows the row. -/
lemma ledger {seed : Option String → ℚ} (hled : a.Ledger seed) : b.Ledger seed := by
  intro asset
  have hins := sumBy_insert (fun (_ : String) (t : AppliedTrade) => t.ledgerEffect asset)
    a.trades key t
  have hrows : b.trades.sumBy (fun _ trade => trade.ledgerEffect asset) =
      (a.trades.insert key t).sumBy fun _ trade => trade.ledgerEffect asset := by
    refine sumBy_of_lookup_eq _ fun k => ?_
    rw [h.lookup]
    split
    · next hk => rw [hk, lookup_insert]
    · next hk => rw [lookup_insert_ne hk]
  rw [h.balances, hled asset, hrows, hins, add_assoc]
  rfl

end RowStep

end HexAgent.Account
