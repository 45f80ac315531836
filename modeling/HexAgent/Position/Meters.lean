import HexAgent.Position.Ledger
import Mathlib.Tactic.Ring

/-!
# Meters of the incremental queries

Every running sum of the index is a meter: a trade contributes to it by its status, and an open
order by its remaining quantity. The updates of the index move every meter by the change of the
contribution of the trade or order that they are called for.
-/

namespace HexAgent.Position

open TradeSum

/-! ## Meters -/

/-- The running sums of the index. -/
inductive Meter
  | cash
  | availableCash
  | lockedBuyCash
  | quantity (symbol : String)
  | availableQuantity (symbol : String)
  | lockedSellQuantity (symbol : String)

variable (μ : Meter)

namespace Meter

/-- Contribution of a trade that has a status, or is not yet known. -/
def trade (t : TradeRecord) (status : Option TradeStatus) : Meter → ℚ
  | .cash => t.cash * liveFactor status
  | .availableCash =>
    t.cash * if t.side = .buy then liveFactor status else confirmedFactor status
  | .quantity symbol => if t.assetId = symbol then t.quantity * liveFactor status else 0
  | .availableQuantity symbol =>
    if t.assetId = symbol then
      t.quantity * if t.side = .buy then confirmedFactor status else liveFactor status
    else 0
  | .lockedBuyCash => 0
  | .lockedSellQuantity _ => 0

/-- Contribution of an open order. -/
def order (o : PendingOrder) : Meter → ℚ
  | .lockedBuyCash =>
    if o.side = .buy then (o.price + o.cashFeePerShare) * o.remainingQuantity else 0
  | .lockedSellQuantity symbol =>
    if o.side = .sell ∧ o.symbol = symbol then o.remainingQuantity else 0
  | _ => 0

@[simp] lemma trade_none (t : TradeRecord) : μ.trade t none = 0 := by
  cases μ <;> simp [trade, liveFactor, confirmedFactor]

end Meter

@[simp] lemma TradeSum.value_add (s : TradeSum) (x : ℚ) : (s.add x).value = s.value + x := by
  unfold add value
  split <;> ring

namespace IncrementalQueries

variable (q : IncrementalQueries) {t : TradeRecord} {prev : Option TradeStatus} {sym : String}

/-- What a meter shows. -/
def value : Meter → ℚ
  | .cash => q.cash.value
  | .availableCash => q.availableCash.value
  | .lockedBuyCash => q.lockedBuyCash.value
  | .quantity symbol => (q.totals symbol).quantity.value
  | .availableQuantity symbol => (q.totals symbol).availableQuantity.value
  | .lockedSellQuantity symbol => (q.totals symbol).lockedSellQuantity.value

lemma totals_modifyTotals (sym other : String) (f : SymbolTradeTotals → SymbolTradeTotals) :
    (q.modifyTotals sym f).totals other =
      if other = sym then f (q.totals sym) else q.totals other := by
  by_cases h : other = sym
  · subst h
    simp [totals, modifyTotals]
  · simp [totals, modifyTotals, h]

@[simp] lemma value_empty : ({} : IncrementalQueries).value μ = 0 := by
  cases μ <;> simp [value, totals, TradeSum.value]

@[simp] lemma value_touch (sym : String) (μ : Meter) : (q.touch sym).value μ = q.value μ := by
  have htot other : (q.touch sym).totals other = q.totals other := by
    unfold touch
    split
    · rfl
    next h =>
    by_cases hne : other = sym
    · subst hne
      simp [totals, AList.lookup_eq_none.2 h]
    · simp [totals, hne]
  have hsums : (q.touch sym).cash = q.cash ∧ (q.touch sym).availableCash = q.availableCash ∧
      (q.touch sym).lockedBuyCash = q.lockedBuyCash := by
    unfold touch
    split <;> exact ⟨rfl, rfl, rfl⟩
  cases μ <;> simp [value, htot, hsums]

/-- A reservation moves the meters by the contribution of its order. -/
lemma value_reservation (o : PendingOrder) (sign : ℚ) (μ : Meter) :
    (q.reservation o sign).value μ = q.value μ + sign * μ.order o := by
  unfold reservation
  cases hside : o.side with
  | buy =>
    cases μ <;> simp [value, Meter.order, hside, totals]
    ring
  | sell =>
    cases μ with
    | quantity symbol | availableQuantity symbol =>
      simp only [value, totals_modifyTotals, Meter.order, mul_zero, add_zero]
      split <;> simp_all
    | lockedSellQuantity symbol =>
      simp only [value, totals_modifyTotals, Meter.order, hside, true_and]
      by_cases h : symbol = o.symbol
      · simp [h]
      · simp [h, Ne.symm h]
    | _ => simp [value, modifyTotals, Meter.order, hside]

/-- A transition moves the meters by the change of the contribution of its trade. -/
lemma value_transition (previous : Option TradeStatus) (μ : Meter) :
    (q.transition t previous).value μ =
      q.value μ + (μ.trade t (some t.status) - μ.trade t previous) := by
  unfold transition
  dsimp only
  split
  · -- Neither factor changes, so no contribution does.
    next h =>
    have hlive : liveFactor (some t.status) = liveFactor previous := sub_eq_zero.1 h.1
    have hconf : confirmedFactor (some t.status) = confirmedFactor previous :=
      sub_eq_zero.1 h.2
    cases μ <;> simp [Meter.trade, hlive, hconf]
  · cases μ with
    | cash | availableCash | lockedBuyCash =>
      simp only [value, modifyTotals, Meter.trade]
      cases t.side <;> simp <;> ring
    | quantity symbol | availableQuantity symbol | lockedSellQuantity symbol =>
      simp only [value, totals_modifyTotals, Meter.trade]
      by_cases h : symbol = t.assetId
      · subst h
        cases t.side <;> simp [totals] <;> ring
      · simp [h, Ne.symm h, totals]

/-- The entries that a transition leaves. -/
lemma mem_symbols_transition (h : sym ∈ q.symbols) : sym ∈ (q.transition t prev).symbols := by
  unfold transition
  dsimp only
  split
  · exact h
  · exact (AList.mem_insert _).2 (.inr h)

/-- A trade that becomes live, or is live and changes, has an entry. -/
lemma mem_symbols_transition_self (hlive : t.status ≠ .failed)
    (hprev : liveFactor prev = 0) : t.assetId ∈ (q.transition t prev).symbols := by
  have hone : liveFactor (some t.status) = 1 := by simp [liveFactor, hlive]
  unfold transition
  rw [if_neg (by rw [hone, hprev]; norm_num)]
  exact (AList.mem_insert _).2 (.inl rfl)

lemma mem_symbols_reservation {o : PendingOrder} {sign : ℚ} (h : sym ∈ q.symbols) :
    sym ∈ (q.reservation o sign).symbols := by
  unfold reservation
  split
  · exact h
  · exact (AList.mem_insert _).2 (.inr h)

lemma mem_symbols_touch {other : String} (h : sym ∈ q.symbols) : sym ∈ (q.touch other).symbols := by
  unfold touch
  split
  · exact h
  · exact (AList.mem_insert _).2 (.inr h)

/-- A late fee of a live trade moves the meters by the change of its contribution. -/
lemma value_bindFee (t row : TradeRecord) {q' : IncrementalQueries}
    (h : q.bindFee t (t.usdcFee - row.usdcFee) (t.sharesFee - row.sharesFee) = some q')
    (hrow : row.assetId = t.assetId ∧ row.side = t.side ∧ row.size = t.size ∧
      row.price = t.price ∧ row.status = t.status) (hlive : t.status ≠ .failed)
    (hsell : t.side = .sell → row.sharesFee = t.sharesFee) (μ : Meter) :
    q'.value μ = q.value μ + (μ.trade row (some row.status) - μ.trade t (some t.status)) := by
  obtain ⟨hasset, hside, hsize, hprice, hst⟩ := hrow
  have hone : liveFactor (some t.status) = 1 := by simp [liveFactor, hlive]
  have hcash : row.cash = t.cash + (t.usdcFee - row.usdcFee) := by
    unfold TradeRecord.cash
    rw [hside, hsize, hprice]
    cases t.side <;> ring
  have hqty : row.quantity = t.quantity + (t.sharesFee - row.sharesFee) := by
    unfold TradeRecord.quantity
    rw [hside, hsize]
    cases hcase : t.side with
    | buy => ring
    | sell => rw [hsell hcase, sub_self, add_zero]
  unfold bindFee at h
  split at h
  · cases h
    have hconf : confirmedFactor (some t.status) = if t.status = .confirmed then 1 else 0 := by
      simp [confirmedFactor]
    -- A buy moves the available cash at once and the available quantity when it is confirmed.
    cases μ with
    | cash | availableCash | lockedBuyCash =>
      simp only [value, modifyTotals, Meter.trade, hcash, hst, hside, hone, hconf]
      cases t.side <;> by_cases hc : t.status = .confirmed <;> simp [hc]
    | quantity symbol | availableQuantity symbol | lockedSellQuantity symbol =>
      simp only [value, totals_modifyTotals, Meter.trade, hasset, hqty, hst, hside, hone, hconf]
      by_cases hs : symbol = t.assetId
      · subst hs
        cases t.side <;> by_cases hc : t.status = .confirmed <;> simp [hc, totals]
      · simp [hs, Ne.symm hs, totals]
  · cases h

end IncrementalQueries

end HexAgent.Position
