import Mathlib.Data.Rat.Defs
import Mathlib.Data.List.DropRight

/-!
# Shared vocabulary of the account and exchange models

The types that the account ledger and the exchange adapters pass to each other, and the
identifier normalisation both sides apply to order hashes.

Amounts are exact rationals. Order hashes are strings; every comparison in the source goes
through a lookup form that trims white space, drops one `0x` or `0X` and ignores ASCII case, and
`normalizeOrderId` is that form.
-/

namespace HexAgent

/-- Order side. -/
inductive Side
  | buy
  | sell
  deriving DecidableEq

/-- Order lifecycle status. -/
inductive OrderStatus
  | pending
  | accepted
  | partiallyFilled
  | filled
  | failed
  | cancelled
  | rejected
  | executorRejected
  | newOrderTimeout
  | cancelOrderTimeout
  | cancelUncertain
  deriving DecidableEq

/-- Settlement convention fixed at a trade's first fee attribution. -/
inductive FeeSettlement
  | legacyV1
  | collateralV2
  deriving DecidableEq

/-- The collateral fee and the outcome-share fee of a trade. Only a legacy buy is charged in
shares. -/
def FeeSettlement.amounts : FeeSettlement → Side → ℚ → ℚ → ℚ × ℚ
  | .legacyV1, .buy, collateralFee, price => (0, if 0 < price then collateralFee / price else 0)
  | _, _, collateralFee, _ => (collateralFee, 0)

/-- Fee curve of a token: settlement convention, rate and exponent. -/
structure FeeBasis where
  /-- How the fee is charged. -/
  settlement : FeeSettlement
  /-- Multiplier of the curve. -/
  rate : ℚ
  /-- Exponent of `price * (1 - price)`. -/
  exponent : ℚ
  deriving DecidableEq

/-! ## Order identifiers -/

/-- Unicode `White_Space`, the class that Rust's `str::trim` removes. -/
def isWhitespace (c : Char) : Bool :=
  let n := c.toNat
  (0x9 ≤ n && n ≤ 0xD) || n == 0x20 || n == 0x85 || n == 0xA0 || n == 0x1680 ||
    (0x2000 ≤ n && n ≤ 0x200A) || n == 0x2028 || n == 0x2029 || n == 0x202F || n == 0x205F ||
    n == 0x3000

/-- Rust's `str::trim`. -/
def trim (s : List Char) : List Char :=
  (s.dropWhile isWhitespace).rdropWhile isWhitespace

/-- An order hash without surrounding white space and without one leading `0x` or `0X`. -/
def orderIdView (orderId : String) : List Char :=
  let trimmed := trim orderId.toList
  ((trimmed.dropPrefix? ['0', 'x']).or (trimmed.dropPrefix? ['0', 'X'])).getD trimmed

/-- Canonical lookup form of an order hash. -/
def normalizeOrderId (orderId : String) : String :=
  String.ofList ((orderIdView orderId).map Char.toLower)

example : normalizeOrderId " 0XaB1 " = "ab1" := by decide

/-! ## Orders -/

/-- Durable row of one order, owned by one strategy instance. -/
structure OrderOwnership where
  /-- Cancellation inferred from two null lookups rather than proved by the exchange. -/
  inferredCancel : Bool := false
  /-- Owner-local routing slot, the raw `u32`. -/
  orderSlot : ℕ := 0xFFFFFFFF
  /-- Account that owns the order. -/
  accountId : String
  /-- Strategy instance that owns the order. -/
  instanceId : String
  /-- Client order id, the key of the row. -/
  clientOrderId : String
  /-- Exchange order hash. -/
  orderId : String
  /-- Outcome token. -/
  tokenId : String
  /-- Order side. -/
  side : Side
  /-- Original size. -/
  quantity : ℚ
  /-- Booked fills. -/
  filledQuantity : ℚ := 0
  /-- Authoritative terminal `size_matched`. -/
  terminalMatchedQuantity : Option ℚ := none
  /-- Base trade ids named by the latest authoritative audit. -/
  terminalTradeIds : List String := []
  /-- Whether `terminalTradeIds` is the complete authoritative set. -/
  terminalTradeIdsAuthoritative : Bool := false
  /-- Limit price. -/
  price : ℚ
  /-- Fee rate in basis points. -/
  feeRateBps : ℕ := 0
  /-- Fee part of the cash reserved per share; `none` for rows that predate the field. -/
  cashFeePerShare : Option ℚ := none
  /-- Cash held for the order. -/
  reservedCash : ℚ
  /-- Tokens held for the order. -/
  reservedQuantity : ℚ
  /-- Lifecycle status. -/
  status : OrderStatus := .pending
  deriving DecidableEq

/-- Cash reserved for one unfilled share. -/
def OrderOwnership.reservationCashPerShare (order : OrderOwnership) : ℚ :=
  order.price + order.cashFeePerShare.getD (order.price * order.feeRateBps / 10000)

/-- The order row with the given cash and token reservation. -/
def OrderOwnership.withReservation (order : OrderOwnership) (reservation : ℚ × ℚ) :
    OrderOwnership :=
  { order with reservedCash := reservation.1, reservedQuantity := reservation.2 }

/-! ## Order updates -/

/-- Role of a fill. -/
inductive Liquidity
  | maker
  | taker
  deriving DecidableEq

/-- Update of one order, from a placement reply, the private stream or an audit. -/
structure OrderUpdate where
  /-- Client order id. -/
  clientOrderId : String
  /-- Outcome token. -/
  symbol : String
  /-- Order side. -/
  side : Side
  /-- Reported status. -/
  status : OrderStatus
  /-- Role of the fill, if known. -/
  liquidity : Option Liquidity := none
  /-- Size of the fill. -/
  filledQuantity : ℚ := 0
  /-- Resting size. -/
  remainingQuantity : ℚ := 0
  /-- Price of the fill, or of the order for an `Accepted` reply. -/
  avgFillPrice : ℚ := 0
  /-- Local clock. -/
  timestampNs : ℕ := 0
  /-- Trade id of a trade push. -/
  tradeId : Option String := none
  /-- Whether the update comes from an order-specific lookup. -/
  hasOrderAudit : Bool := false
  /-- Order id of the exchange, if known. -/
  exchangeOrderId : Option String := none
  deriving DecidableEq

/-- The update reports a fill of one named trade. -/
def OrderUpdate.isTrade (u : OrderUpdate) : Bool :=
  0 < u.filledQuantity && u.tradeId.any (· ≠ "")

/-- Rust's `s.trim().is_empty()`. -/
def isBlank (s : String) : Bool := s.toList.all isWhitespace

end HexAgent
