import HexAgent.Account.Economics

/-!
# Fees in the economic replay

A fee is computed, booked and reversed by `applyTradeFeeTransitionVirtual`, possibly edges after
the principal. The transition recomputes the fee each time and compares it with the stored one, so
that the balances follow the row only because a stored fee is always the one that the row's own
role and curve give (`FeeRow`).
-/

namespace HexAgent.Account

open VirtualAccount Option Bool AppliedTrade

/-- Either no fee was ever computed for the row, or the stored fee is the one of its role and
curve. -/
def FeeRow (N : Numerics) (t : AppliedTrade) : Prop :=
  (t.virtualFeeBooked = false ∧ t.physicalFeeBooked = false ∧ t.usdcFee = 0 ∧ t.sharesFee = 0) ∨
    ∃ isMaker, t.isMaker = some isMaker ∧
      (t.usdcFee, t.sharesFee) = configuredTradeFeeAmounts N t isMaker t.feeConfig ∧
      (isMaker = false → t.feeConfig.isSome)

section Fees

variable {N : Numerics} {t : AppliedTrade} {isMaker failed : Bool}
  {cur current cfg : Option FeeBasis} {a : VirtualAccount} {fee : ℚ × ℚ}

lemma configuredTradeFeeAmounts_maker : configuredTradeFeeAmounts N t true cfg = (0, 0) := by
  cases cfg <;> rfl

lemma boundTrade_feeConfig :
    (boundTrade t isMaker (feeConfigForTrade t current)).feeConfig =
      feeConfigForTrade t current := by
  unfold boundTrade bindTradeFeeConfig
  cases hcfg : feeConfigForTrade t current with
  | some cfg => rfl
  | none =>
    have hnone : t.feeConfig = none := by
      exact (or_eq_none_iff.1 hcfg).1
    dsimp only
    split <;> exact hnone

/-- Binding a role and a curve changes nothing else. -/
lemma boundTrade_eq : ∃ settlement feeConfig, boundTrade t isMaker cfg =
      { t with isMaker := some isMaker, feeSettlement := settlement, feeConfig := feeConfig } := by
  unfold boundTrade bindTradeFeeConfig
  cases cfg with
  | some cfg => exact ⟨_, _, rfl⟩
  | none =>
    dsimp only
    split
    · exact ⟨_, _, rfl⟩
    · exact ⟨_, _, rfl⟩

/-- A role that is stored is the role of the transition. -/
lemma role_eq {m : Bool} (hrole : t.isMaker.any (· != isMaker) = false)
    (hm : t.isMaker = some m) : m = isMaker := by
  rw [hm] at hrole
  simpa using hrole

/-- A recomputed fee never contradicts the stored one, and replaces it only by itself. -/
lemma FeeRow.computed (h : FeeRow N t) (heps : 0 ≤ N.tol.eps)
    (hrole : t.isMaker.any (· != isMaker) = false) :
    let fee := lifecycleTradeFeeAmounts N t isMaker (feeConfigForTrade t cur)
    feeReplayMismatch N.tol t fee = false ∧ effectiveFee N.tol t fee = fee ∧
      (t.virtualFeeBooked = true → (t.usdcFee, t.sharesFee) = fee) := by
  rcases h with ⟨hbook, -, husdc, hshares⟩ | ⟨m, hm, hfee, hcfg⟩
  · have hnot : ¬N.tol.eps < 0 := not_lt.2 heps
    refine ⟨?_, ?_, fun h => ?_⟩
    · simp [feeReplayMismatch, husdc, hshares, hnot]
    · simp [effectiveFee, husdc, hshares, hnot]
    · rw [hbook] at h
      cases h
  · obtain rfl := role_eq hrole hm
    have hknown : lifecycleTradeFeeAmounts N t m (feeConfigForTrade t cur) =
        (t.usdcFee, t.sharesFee) := by
      unfold lifecycleTradeFeeAmounts
      split
      · rfl
      rw [hfee]
      cases m with
      | true => rw [configuredTradeFeeAmounts_maker, configuredTradeFeeAmounts_maker]
      | false =>
        obtain ⟨cfg, hcfg⟩ := isSome_iff_exists.1 (hcfg rfl)
        rw [feeConfigForTrade, hcfg, some_or]
    rw [hknown]
    refine ⟨?_, ?_, fun _ => rfl⟩
    · simp [feeReplayMismatch, not_lt.2 heps]
    · simp [effectiveFee]

/-- The row that a fee transition writes, before its booking flags. -/
lemma FeeRow.transition (h : FeeRow N t) (hrole : t.isMaker.any (· != isMaker) = false)
    (hcfg : isMaker = false → (feeConfigForTrade t cur).isSome) {settlement : Option FeeSettlement}
    {virtualFeeBooked physicalFeeBooked : Bool} (failed : Bool)
    (hfail : t.failed = true → failed = true)
    (hunb : failed = true → virtualFeeBooked = false ∧ physicalFeeBooked = false) :
    let fee := lifecycleTradeFeeAmounts N t isMaker (feeConfigForTrade t cur)
    FeeRow N { t with
      isMaker := some isMaker
      feeSettlement := settlement
      feeConfig := feeConfigForTrade t cur
      usdcFee := fee.1
      sharesFee := fee.2
      virtualFeeBooked := virtualFeeBooked
      physicalFeeBooked := physicalFeeBooked } := by
  intro fee
  by_cases hstored : (t.executionPricing.isNone && appliedTradeFeeAttributed t) = true
  swap
  · refine .inr ⟨isMaker, rfl, ?_, hcfg⟩
    show fee = configuredTradeFeeAmounts N t isMaker (feeConfigForTrade t cur)
    simp only [fee, lifecycleTradeFeeAmounts, if_neg hstored]
  have hfee : fee = (t.usdcFee, t.sharesFee) := by
    simp only [fee, lifecycleTradeFeeAmounts, if_pos hstored]
  rcases h with ⟨hbook, hphys, husdc, hshares⟩ | ⟨m, hm, hknownFee, hm'⟩
  · -- Only a maker leg, or a failed taker leg, is attributed without a booked fee.
    rw [husdc, hshares] at hfee
    simp only [appliedTradeFeeAttributed, hbook, hphys, Bool.or_false, Bool.and_eq_true,
      or_eq_true, beq_iff_eq] at hstored
    rcases hstored.2 with hmaker | ⟨⟨hrowFailed, -⟩, -⟩
    · obtain rfl := role_eq hrole hmaker
      exact .inr ⟨true, rfl, hfee.trans configuredTradeFeeAmounts_maker.symm, hcfg⟩
    · obtain ⟨hv, hp⟩ := hunb (hfail hrowFailed)
      exact .inl ⟨hv, hp, congrArg Prod.fst hfee, congrArg Prod.snd hfee⟩
  · obtain rfl := role_eq hrole hm
    refine .inr ⟨m, rfl, hfee.trans (hknownFee.trans ?_), hcfg⟩
    cases m with
    | true => rw [configuredTradeFeeAmounts_maker, configuredTradeFeeAmounts_maker]
    | false =>
      obtain ⟨cfg, hcfg⟩ := isSome_iff_exists.1 (hm' rfl)
      rw [feeConfigForTrade, hcfg, some_or]
      rfl

/-- A row step that changes the fee of a row. -/
structure FeeStep (N : Numerics) (a b : VirtualAccount) (key : String) (t t' : AppliedTrade) :
    Prop extends RowStep a b key t' where
  feeRow : FeeRow N t'
  failed_eq : t'.failed = t.failed
  booked_eq : t'.booked = t.booked
  -- a failed leg keeps no fee
  unbooked : t'.failed = true → t'.virtualFeeBooked = false

/-- What a transition does with a fee that agrees with the stored one. -/
def settledMove (booked failed : Bool) : FeeMove :=
  if failed then (if booked then .reverse else .keep) else if booked then .keep else .book

/-- A fee that is booked is not booked again. -/
lemma feeMove_eq {tol : Tolerance}
    (hfee : t.virtualFeeBooked = true → (t.usdcFee, t.sharesFee) = fee) :
    feeMove tol t fee failed = settledMove t.virtualFeeBooked failed := by
  cases hbook : t.virtualFeeBooked with
  | false => cases failed <;> simp [feeMove, settledMove, hbook]
  | true =>
    cases failed with
    | true => simp [feeMove, settledMove, hbook]
    | false =>
      rw [← hfee hbook]
      simp only [feeMove, settledMove, hbook]
      grind

/-- What the fee transition of a row moves. -/
def AppliedTrade.feeDelta (N : Numerics) (row : AppliedTrade) (isMaker : Bool)
    (current : Option FeeBasis) : ℚ × ℚ :=
  let fee := effectiveFee N.tol row
    (lifecycleTradeFeeAmounts N row isMaker (feeConfigForTrade row current))
  let failed := row.failed || row.ownership.status == .failed
  let multiplier := (feeMove N.tol row fee failed).multiplier
  (-fee.1 * multiplier, -fee.2 * multiplier)

/-- The balances follow what the row has moved. -/
lemma amount_moveFee (hadd : N.addBalance = AtomicF64.add) {t' : AppliedTrade}
    (hcov : a.economics.Covers t.ownership.tokenId
      (-fee.1 * (settledMove t.virtualFeeBooked failed).multiplier,
        -fee.2 * (settledMove t.virtualFeeBooked failed).multiplier))
    (hfee : t.virtualFeeBooked = true → (t.usdcFee, t.sharesFee) = fee)
    (hown : t'.ownership = t.ownership) (hbook : t'.booked = t.booked)
    (hfee' : (t'.usdcFee, t'.sharesFee) = fee) (hvirt : t'.virtualFeeBooked = !failed)
    {asset : Option String} :
    (a.moveFee N t.ownership.tokenId fee
        (settledMove t.virtualFeeBooked failed)).economics.amount asset =
      a.economics.amount asset + (t'.ledgerEffect asset - t.ledgerEffect asset) := by
  have hchange delta (h : t'.moved = t.moved + delta) :
      t'.ledgerEffect asset - t.ledgerEffect asset = movement t.ownership.tokenId delta asset := by
    rw [ledgerEffect, ledgerEffect, hown, h, movement_add]
    ring
  have hkeep (h : t'.moved = t.moved) : a.economics.amount asset =
      a.economics.amount asset + (t'.ledgerEffect asset - t.ledgerEffect asset) := by
    rw [hchange 0 (by rw [h, add_zero]), movement_zero, add_zero]
  cases hv : t.virtualFeeBooked <;> cases failed
  · have hmoved : t'.moved = t.moved + (-fee.1 * 1, -fee.2 * 1) := by
      rw [moved, moved, hown, hbook, hvirt, hv, hfee']
      ext <;> simp [sub_eq_add_neg]
    rw [hchange _ hmoved]
    rw [hv] at hcov
    exact amount_move hadd hcov asset
  · refine hkeep ?_
    rw [moved, moved, hown, hbook, hvirt, hv]
    rfl
  · refine hkeep ?_
    rw [moved, moved, hown, hbook, hvirt, hv, hfee', hfee hv]
    rfl
  · have hmoved : t'.moved = t.moved + (-fee.1 * -1, -fee.2 * -1) := by
      rw [moved, moved, hown, hbook, hvirt, hv, hfee hv]
      ext <;> simp
    rw [hchange _ hmoved]
    rw [hv] at hcov
    exact amount_move hadd hcov asset

/-- A covered fee transition on a row of the same role. -/
lemma feeStep (hadd : N.addBalance = AtomicF64.add) (heps : 0 ≤ N.tol.eps) {key : String}
    {status : OrderStatus} (hget : a.trades.lookup key = some t) (hrow : FeeRow N t)
    (hrole : t.isMaker.any (· != isMaker) = false)
    (hstatus : (status == .failed || t.failed) = (t.failed || t.ownership.status == .failed))
    (hcov : a.economics.Covers t.ownership.tokenId (t.feeDelta N isMaker current)) :
    ∃ t', FeeStep N a (a.applyTradeFeeTransitionVirtual N key status isMaker current).2 key t
      t' := by
  obtain ⟨settlement, feeConfig, hbound⟩ := boundTrade_eq (t := t)
  obtain rfl : feeConfig = feeConfigForTrade t current := by
    rw [← boundTrade_feeConfig, hbound]
  obtain ⟨hmism, heff, hstored⟩ := hrow.computed heps hrole
  unfold applyTradeFeeTransitionVirtual
  rw [hget]
  dsimp only
  rw [if_neg (by simp [hrole]), hbound, hmism, heff, feeMove_eq hstored]
  split
  · next hpend =>
    -- A taker leg without a curve waits; its fee was never computed.
    simp only [Bool.and_eq_true, Bool.not_eq_eq_eq_not, Bool.not_true, Option.isNone_iff_eq_none]
      at hpend
    have hnever : t.virtualFeeBooked = false ∧ t.physicalFeeBooked = false ∧ t.usdcFee = 0 ∧
        t.sharesFee = 0 := by
      refine hrow.resolve_right ?_
      rintro ⟨m, hm, -, hcfg⟩
      obtain ⟨cfg, hcfg⟩ := isSome_iff_exists.1 (hcfg ((role_eq hrole hm).trans hpend.1))
      rw [feeConfigForTrade, hcfg] at hpend
      cases hpend.2
    exact ⟨{ t with
      isMaker := some isMaker
      feeSettlement := settlement
      feeConfig := feeConfigForTrade t current },
      .congr (.rewrite hget fun _ => rfl) books_setFeePending,
      .inl hnever, rfl, rfl, fun _ => hnever.1⟩
  next hatt =>
  have hcfg (h : isMaker = false) : (feeConfigForTrade t current).isSome := by
    simpa [h, isSome_iff_ne_none] using hatt
  unfold feeDelta at hcov
  dsimp only at hcov
  rw [heff, feeMove_eq hstored, ← hstatus] at hcov
  generalize hfail : (status == .failed || t.failed) = failed at hcov ⊢
  have hvirt : (settledMove t.virtualFeeBooked failed == .book || (t.virtualFeeBooked &&
      !(settledMove t.virtualFeeBooked failed == .reverse))) = !failed := by
    cases failed <;> cases t.virtualFeeBooked <;> rfl
  rw [hvirt]
  refine ⟨{ t with
    isMaker := some isMaker
    feeSettlement := settlement
    feeConfig := feeConfigForTrade t current
    usdcFee := (lifecycleTradeFeeAmounts N t isMaker (feeConfigForTrade t current)).1
    sharesFee := (lifecycleTradeFeeAmounts N t isMaker (feeConfigForTrade t current)).2
    virtualFeeBooked := !failed
    physicalFeeBooked := !failed && t.physicalBooked }, .insert ?_ fun asset => ?_,
    hrow.transition hrole hcfg failed (fun h => ?_) fun h => ?_, rfl, rfl, fun h => ?_⟩
  · show (setTrade _ key _).trades = _
    rw [setTrade, moveFee_trades]
  · rw [hget]
    refine amount_moveFee hadd hcov hstored ?_ ?_ ?_ ?_ <;> rfl
  · rw [← hfail, h, Bool.or_true]
  · simp [h]
  · have hfail' : failed = true := by rw [← hfail, h, Bool.or_true]
    simp [hfail']

end Fees

end HexAgent.Account
