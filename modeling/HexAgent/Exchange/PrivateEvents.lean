import HexAgent.Account.Ledger

/-!
# Private events of the exchange

An account receives order and trade events over its private stream and again from the trade history
after a gap. The events are given here as decoded payloads: the fields that the adapter reads, the
status of a trade as one of the words that the venue uses, and of the maker orders of a trade only
those that belong to the account.

A trade is one leg as taker, and one leg for each own order as maker. Three parts of the adapter
rank the statuses of a leg: the ledger of live trades (`LiveStatus.rank`), the delivery to
strategies (`privateStatus`) and the suppression of replays (`tradeLifecycleIdentity` in
`ColdReplay`).
-/

namespace HexAgent.Exchange

/-! ## Statuses -/

/-- Status of a trade in the words of the venue, without the prefix `TRADE_STATUS_`. -/
inductive VenueStatus
  | matched
  | matchedNotBroadcasted
  | mined
  | confirmed
  | failed
  | retrying
  | other
  deriving DecidableEq

/-- `TradeStatus` of the live ledger. -/
inductive LiveStatus
  | matched
  | mined
  | confirmed
  | retrying
  | failed
  deriving DecidableEq

namespace LiveStatus

/-- `TradeStatus::from_str`. -/
def fromVenue : VenueStatus → Option LiveStatus
  | .matched | .matchedNotBroadcasted => some .matched
  | .mined => some .mined
  | .confirmed => some .confirmed
  | .retrying => some .retrying
  | .failed => some .failed
  | .other => none

def isTerminal : LiveStatus → Bool
  | .confirmed | .failed => true
  | _ => false

def rank : LiveStatus → ℕ
  | .retrying => 0
  | .matched => 1
  | .mined => 2
  | .failed => 3
  | .confirmed => 4

end LiveStatus

/-- `private_status`: the normalised word, the status of the update and its delivery rank. A payload
without a status counts as matched. -/
def privateStatus (status : Option VenueStatus) : VenueStatus × OrderStatus × ℕ :=
  match status.getD .matched with
  | .matched | .matchedNotBroadcasted => (.matched, .partiallyFilled, 1)
  | .mined => (.mined, .partiallyFilled, 2)
  | .confirmed => (.confirmed, .filled, 5)
  | .failed => (.failed, .failed, 4)
  | .retrying => (.retrying, .partiallyFilled, 0)
  | .other => (.other, .partiallyFilled, 0)

/-! ## Payloads -/

/-- An own order in the `maker_orders` of a trade. -/
structure MakerLeg where
  orderId : String
  assetId : String
  side : Side
  matchedAmount : ℚ
  price : ℚ
  deriving DecidableEq

inductive PrivateTradeRole
  | maker
  | taker
  deriving DecidableEq

/-- A trade event. -/
structure TradePayload where
  /-- `id` or `trade_id`; empty if missing. -/
  tradeId : String
  /-- `status`, if present. -/
  status : Option VenueStatus
  /-- The taker order, under any of its names. -/
  takerOrderId : Option String
  assetId : String
  side : Side
  size : ℚ
  price : ℚ
  /-- The own orders among `maker_orders`. -/
  makerLegs : List MakerLeg
  /-- Whether `maker_orders` has any entry. -/
  hasMakerOrders : Bool := false
  /-- Whether the top-level `maker_address` is the account. -/
  makerMatchesAccount : Bool := false
  deriving DecidableEq

/-- Lifecycle word of an order event. -/
inductive OrderLifecycle
  | placement
  | update
  | cancellation
  | other (text : String)
  deriving DecidableEq

/-- An order event. -/
structure OrderPayload where
  orderId : String
  assetId : String
  side : Side
  price : ℚ
  originalSize : ℚ
  sizeMatched : ℚ
  lifecycle : OrderLifecycle
  associateTrades : List String
  deriving DecidableEq

/-- A private event. -/
inductive PrivateEvent
  | order (payload : OrderPayload)
  | trade (payload : TradePayload)
  deriving DecidableEq

/-- `FrozenTradeExecution`, with the fee as settlement and amounts. -/
structure FrozenTradeExecution where
  rawPrice : ℚ
  price : ℚ
  grossNotional : Option ℚ
  settlement : FeeSettlement
  usdcFee : ℚ
  sharesFee : ℚ
  deriving DecidableEq

structure PrivateEventDelta where
  event : PrivateEvent
  execution : Option FrozenTradeExecution := none
  needsExecutionRepair : Bool := false
  archiveChecked : Bool := false
  needsArchiveLookup : Bool := false
  deriving DecidableEq

/-- Rust's `str::trim` on a string. -/
def trimmed (s : String) : String := String.ofList (trim s.toList)

/-- Ledger key of a maker leg. -/
def makerLegKey (tradeId orderId : String) : String :=
  let normalized := normalizeOrderId orderId
  if normalized = "" then tradeId else s!"{tradeId}:{normalized}"

/-! ## Fingerprints -/

/-- One byte of `private_route_fingerprint`. -/
def fingerprintByte (state : UInt64 × UInt64) (byte : UInt8) : UInt64 × UInt64 :=
  let left := (state.1 ^^^ byte.toUInt64) * 0x100000001b3
  let right := state.2 ^^^ (byte.toUInt64 + 0x9d)
  (left, ((right <<< 7) ||| (right >>> 57)) * 0x9e3779b185ebca87)

/-- `to_ascii_lowercase` on a byte. -/
def asciiLower (byte : UInt8) : UInt8 := if 65 ≤ byte ∧ byte ≤ 90 then byte + 32 else byte

/-- The parts of a fingerprint that are order hashes lose their `0x`. -/
def fingerprintPart (kind : Char) (index : ℕ) (part : String) : String :=
  if kind = 'o' ∨ (kind = 'm' ∧ index = 1) then String.ofList (orderIdView part) else trimmed part

/-- `private_route_fingerprint`: two 64-bit hashes over the parts, one after the other. -/
def privateRouteFingerprint (kind : Char) (parts : List String) : UInt64 × UInt64 :=
  let start : UInt64 × UInt64 :=
    (0xcbf29ce484222325 ^^^ kind.toNat.toUInt64, 0x9e3779b97f4a7c15 ^^^ kind.toNat.toUInt64)
  parts.zipIdx.foldl (fun state part =>
    let state := ((fingerprintPart kind part.2 part.1).toUTF8.toList.map asciiLower).foldl
      fingerprintByte state
    (state.1 ^^^ 0xff, state.2 ^^^ 0xa5)) start

end HexAgent.Exchange
