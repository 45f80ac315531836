import HexAgent.Account.Ledger

/-!
# Trade fees of the virtual account

The fee of a trade leg is computed from the curve of its token, frozen on the trade row at its
first attribution, and then booked to and reversed from the virtual balances together with the
lifecycle of the leg. The maker side pays nothing; a taker leg whose curve is not known yet waits
in `feeAttributionPending`.
-/

namespace HexAgent.Account

/-- Fee of one trade leg. -/
structure TradeFee where
  settlement : FeeSettlement
  usdcFee : ℚ
  sharesFee : ℚ
  deriving DecidableEq

/-- Fee data that the private lane sends with a trade. -/
structure ExecutionFeeContext where
  settlement : FeeSettlement
  fallback : Option FeeBasis
  executionPricing : Option TradeExecutionPricing
  selectedBasis : Option FeeBasis
  frozenFee : Option TradeFee
  deriving DecidableEq

/-- Rust's `f64::round`: nearest integer, halves away from zero. -/
def roundHalfAway (x : ℚ) : ℤ :=
  if 0 ≤ x then ⌊x + 1 / 2⌋ else ⌈x - 1 / 2⌉

/-- Collateral fee of the curve at an execution price. -/
def collateralFee (N : Numerics) (quantity price : ℚ) (config : FeeBasis)
    (actualExecution : Bool) : ℚ :=
  let fee := quantity * config.rate * N.powf (max (price * (1 - price)) 0) config.exponent
  if actualExecution && config.settlement == .collateralV2 then
    -- Truncation to five decimals; a value within rounding error of an integer counts as it.
    let scaled := fee * 100000
    let nearest : ℚ := roundHalfAway scaled
    let slack := max (max |scaled| (|quantity| * config.rate * 100000)) 1 * 16 * N.tol.float
    let scaled := if |scaled - nearest| ≤ slack then nearest else scaled
    (⌊scaled⌋ : ℚ) / 100000
  else fee

def executionFeeAmounts (N : Numerics) (quantity price : ℚ) (side : Side) (isMaker : Bool)
    (config : FeeBasis) (actualExecution : Bool) : ℚ × ℚ :=
  if isMaker then (0, 0)
  else
    let price := min (max price 0) 1
    config.settlement.amounts side (collateralFee N quantity price config actualExecution) price

def configuredTradeFeeAmounts (N : Numerics) (trade : AppliedTrade) (isMaker : Bool) :
    Option FeeBasis → ℚ × ℚ
  | none => (0, 0)
  | some config =>
    executionFeeAmounts N trade.ownership.quantity trade.ownership.price trade.ownership.side
      isMaker config trade.executionPricing.isSome

variable (trade : AppliedTrade)

def appliedTradeFeeAttributed : Bool :=
  trade.isMaker == some true || trade.virtualFeeBooked || trade.physicalFeeBooked ||
    (trade.failed && trade.isMaker == some false && trade.feeConfig.isSome)

def attributedTradeFee : Option TradeFee :=
  if appliedTradeFeeAttributed trade then
    some ⟨trade.feeSettlement.getD .legacyV1, trade.usdcFee, trade.sharesFee⟩
  else none

variable (tol : Tolerance)

/-- `frozen_context_conflicts`: a frozen fee may not contradict what is attributed already. -/
def frozenContextConflicts (prior : Option AppliedTrade) (context : ExecutionFeeContext) : Bool :=
  match context.frozenFee, prior with
  | some incoming, some prior =>
    ((attributedTradeFee prior).any fun fee =>
      fee.settlement != incoming.settlement ||
        decide (tol.relative < |fee.usdcFee - incoming.usdcFee|) ||
        decide (tol.relative < |fee.sharesFee - incoming.sharesFee|)) ||
    (match prior.feeConfig, context.selectedBasis with
      | some old, some new => old != new
      | _, _ => false)
  | _, _ => false

/-- `fee_config_for_trade`: a bound curve wins; the current one must not contradict the row's
settlement convention. -/
def feeConfigForTrade (current : Option FeeBasis) : Option FeeBasis :=
  trade.feeConfig.or <| current.filter fun config =>
    trade.feeSettlement.all fun settlement => settlement == config.settlement

def bindTradeFeeConfig : Option FeeBasis → AppliedTrade
  | some config =>
    { trade with feeSettlement := some config.settlement, feeConfig := some config }
  | none =>
    if trade.isMaker == some true && trade.feeSettlement.isNone then
      { trade with feeSettlement := some .legacyV1 }
    else trade

/-- `lifecycle_trade_fee_amounts`: an attributed row that predates frozen pricing keeps its
stored fee. -/
def lifecycleTradeFeeAmounts (N : Numerics) (trade : AppliedTrade) (isMaker : Bool)
    (config : Option FeeBasis) : ℚ × ℚ :=
  if trade.executionPricing.isNone && appliedTradeFeeAttributed trade then
    (trade.usdcFee, trade.sharesFee)
  else configuredTradeFeeAmounts N trade isMaker config

/-- Why a fee transition is refused. -/
inductive FeeTransitionError
  | missingTrade
  | roleMismatch
  | feeMismatch
  deriving DecidableEq

/-- Whether a recomputed fee contradicts the stored one. -/
def feeReplayMismatch (trade : AppliedTrade) (fee : ℚ × ℚ) : Bool :=
  (decide (tol.eps < trade.usdcFee) && decide (tol.eps < |trade.usdcFee - fee.1|)) ||
    (decide (tol.eps < trade.sharesFee) && decide (tol.eps < |trade.sharesFee - fee.2|))

/-- The fee that a transition leaves on the row: a stored fee wins over the recomputed one. -/
def effectiveFee (trade : AppliedTrade) (fee : ℚ × ℚ) : ℚ × ℚ :=
  (if tol.eps < trade.usdcFee then trade.usdcFee else fee.1,
    if tol.eps < trade.sharesFee then trade.sharesFee else fee.2)

/-- Direction in which a fee transition moves the balances. -/
inductive FeeMove
  | book
  | reverse
  | keep
  deriving DecidableEq

/-- Multiplier of the fee for a direction. -/
def FeeMove.multiplier : FeeMove → ℚ
  | .book => 1
  | .reverse => -1
  | .keep => 0

/-- A fee is booked once, or again when a zero fee becomes positive; it is reversed when the leg
failed after booking it. -/
def feeMove (trade : AppliedTrade) (fee : ℚ × ℚ) (failed : Bool) : FeeMove :=
  let upgradesZero := decide (trade.usdcFee ≤ tol.eps) && decide (trade.sharesFee ≤ tol.eps) &&
    (decide (tol.eps < fee.1) || decide (tol.eps < fee.2))
  if !failed && (!trade.virtualFeeBooked || upgradesZero) then .book
  else if failed && trade.virtualFeeBooked then .reverse
  else .keep

namespace VirtualAccount

variable {N : Numerics} {a : VirtualAccount}

/-- Move the balances by a fee. -/
def moveFee (N : Numerics) (a : VirtualAccount) (token : String) (fee : ℚ × ℚ) (move : FeeMove) :
    VirtualAccount :=
  if move = .keep then a
  else (a.addCash N (-fee.1 * move.multiplier)).addPosition N token (-fee.2 * move.multiplier)

lemma moveFee_trades (token : String) (fee : ℚ × ℚ) (move : FeeMove) :
    (a.moveFee N token fee move).trades = a.trades := by
  unfold moveFee
  split <;> rfl

/-- The row after its role and curve were bound. -/
def boundTrade (trade : AppliedTrade) (isMaker : Bool) (config : Option FeeBasis) : AppliedTrade :=
  bindTradeFeeConfig { trade with isMaker := some isMaker } config

/-- `apply_trade_fee_transition_virtual`. The result says whether anything observable changed; a
refused recomputation leaves the role and the curve bound. -/
def applyTradeFeeTransitionVirtual (N : Numerics) (a : VirtualAccount) (tradeKey : String)
    (status : OrderStatus) (isMaker : Bool) (config : Option FeeBasis) :
    Except FeeTransitionError Bool × VirtualAccount :=
  match a.trades.lookup tradeKey with
  | none => (.error .missingTrade, a)
  | some existing =>
    if existing.isMaker.any (· != isMaker) then (.error .roleMismatch, a)
    else
      let config := feeConfigForTrade existing config
      let trade := boundTrade existing isMaker config
      if !isMaker && config.isNone then
        (.ok (existing.isMaker != some isMaker),
          (a.setTrade tradeKey trade).setFeePending tradeKey true)
      else
        let computed := lifecycleTradeFeeAmounts N existing isMaker config
        if feeReplayMismatch N.tol existing computed then
          (.error .feeMismatch, a.setTrade tradeKey trade)
        else
          let fee := effectiveFee N.tol existing computed
          let failed := status == .failed || existing.failed
          let move := feeMove N.tol existing fee failed
          let settledFee := !failed && existing.physicalBooked
          let trade := { trade with
            usdcFee := fee.1
            sharesFee := fee.2
            virtualFeeBooked :=
              move == .book || (existing.virtualFeeBooked && !(move == .reverse))
            physicalFeeBooked := settledFee }
          (.ok (move != .keep || existing.isMaker != some isMaker ||
              existing.physicalFeeBooked != settledFee),
            ((a.moveFee N existing.ownership.tokenId fee move).setTrade tradeKey
              trade).setFeePending
              tradeKey false)

lemma applyTradeFeeTransitionVirtual_orders {tradeKey : String} {status : OrderStatus}
    {isMaker : Bool} {cfg : Option FeeBasis} :
    (a.applyTradeFeeTransitionVirtual N tradeKey status isMaker cfg).2.orders = a.orders := by
  unfold applyTradeFeeTransitionVirtual
  split
  · rfl
  split
  · rfl
  dsimp only
  split
  · rfl
  split
  · rfl
  unfold moveFee
  split <;> rfl

end VirtualAccount

end HexAgent.Account
