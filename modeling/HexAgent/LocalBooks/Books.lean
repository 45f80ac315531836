import HexAgent.Maintenance.ExpiredNonce
import HexAgent.ToMathlib.AListRows
import HexAgent.Types
import Mathlib.Data.Finset.Basic
import Mathlib.Data.List.Sort
import Mathlib.Order.Compare

/-!
# Local order books of the CLOB feed

The feed keeps one book per token (`ClobLocalBooks`). A condition has an Up and a Down token; the
book of the Down token is published as a book of the Up token with complementary prices. A price
change reports the best bid and ask of the venue. A book that disagrees with the report is held back
until its check is resolved (`PendingBboCheck`), and is quarantined when this takes too long. The
health of a condition is published whenever it changes; a recovery is published after a stable
interval only.

Prices and sizes are rational numbers, in place of the decimals of the source and of the floats that
they are converted to in an event. Instants are nanoseconds. The parts of the decimal library that
the feed calls are a parameter (`DecimalLib`). Counters, diagnostics, histograms, and the fields
that only they read, are left out.
-/

namespace HexAgent.LocalBooks

open HexAgent.Maintenance

/-! ## Decimals and times -/

/-- `rust_decimal`. -/
structure DecimalLib where
  fromStr : String → Option ℚ
  /-- `Decimal::from_f64_retain`, of the bits of a float. -/
  fromF64Retain : UInt64 → Option ℚ
  display : ℚ → String

def trimText (text : String) : String := String.ofList (trim text.toList)

inductive WireDecimal
  | string (text : String)
  | u64 (value : ℕ)
  | i64 (value : ℤ)
  | f64 (bits : UInt64)

def WireDecimal.decimal (lib : DecimalLib) : WireDecimal → Option ℚ
  | .string text => lib.fromStr (trimText text)
  | .u64 value => some value
  | .i64 value => some value
  | .f64 bits => lib.fromF64Retain bits

/-- `timestamp_value_to_ns`: milliseconds are normalised to nanoseconds. -/
def timestampValueToNs (timestamp : Option ℕ) (fallbackNs : ℕ) : ℕ :=
  match timestamp with
  | some ts => if ts < 1000000000000000 then min (ts * 1000000) (2 ^ 64 - 1) else ts
  | none => fallbackNs

def clobBookCoalesceInterval : ℕ := 250000000

def clobBboRepairInterval : ℕ := 50000000

def clobHealthRecoveryStableInterval : ℕ := 500000000

/-! ## Books -/

/-- Best bid and best ask. -/
abbrev Top := Option ℚ × Option ℚ

/-- The outer option tells whether the field was present, the inner one is the price after the
terminal values are mapped to no level. -/
structure ReportedBbo where
  bid : Option (Option ℚ) := none
  ask : Option (Option ℚ) := none
  deriving DecidableEq

def ReportedBbo.merge (older newer : ReportedBbo) : ReportedBbo where
  bid := newer.bid.or older.bid
  ask := newer.ask.or older.ask

/-- `matches`. -/
def ReportedBbo.agrees (r : ReportedBbo) (actual : Top) : Bool :=
  r.bid.all (· = actual.1) && r.ask.all (· = actual.2)

def normalizeReportedBbo (price : ℚ) : Option ℚ :=
  if price = 0 ∨ price = 1 then none else some price

structure PendingBboCheck where
  exchangeTimestampNs : ℕ
  expected : ReportedBbo
  firstObservedAt : ℕ
  deriving DecidableEq

structure ClobBookVersion where
  exchangeTimestampNs : ℕ
  wireSequence : ℕ
  deriving DecidableEq

/-- The derived order of versions. -/
def ClobBookVersion.isBefore (a b : ClobBookVersion) : Bool :=
  a.exchangeTimestampNs < b.exchangeTimestampNs ||
    (a.exchangeTimestampNs = b.exchangeTimestampNs && a.wireSequence < b.wireSequence)

/-- Sizes by price. -/
abbrev Levels := Std.TreeMap ℚ ℚ

structure ClobLocalBook where
  bids : Levels
  asks : Levels
  exchangeTimestampNs : ℕ
  wireSequence : ℕ
  dirtySince : Option ℕ

variable (book : ClobLocalBook)

def ClobLocalBook.top : Top :=
  (book.bids.keys.getLast?, book.asks.keys.head?)

def ClobLocalBook.isSemanticallyValid : Bool :=
  match book.top with
  | (some bid, some ask) => !decide (ask ≤ bid)
  | _ => true

def ClobLocalBook.version : ClobBookVersion where
  exchangeTimestampNs := book.exchangeTimestampNs
  wireSequence := book.wireSequence

structure PriceLevel where
  price : ℚ
  quantity : ℚ
  deriving DecidableEq

structure OrderBookSnapshot where
  symbol : String
  bids : List PriceLevel
  asks : List PriceLevel
  exchangeTimestampNs : ℕ
  localTimestampNs : ℕ
  /-- The token of the book. Nothing reads it. -/
  source : String
  deriving DecidableEq

/-- `snapshot`: levels from the best to the worst. -/
def ClobLocalBook.snapshot (source symbol : String) (mirrorDown : Bool)
    (localNow : ℕ) : OrderBookSnapshot where
  symbol := symbol
  bids :=
    if mirrorDown then book.asks.toList.map fun level => ⟨1 - level.1, level.2⟩
    else book.bids.toList.reverse.map fun level => ⟨level.1, level.2⟩
  asks :=
    if mirrorDown then book.bids.toList.reverse.map fun level => ⟨1 - level.1, level.2⟩
    else book.asks.toList.map fun level => ⟨level.1, level.2⟩
  exchangeTimestampNs := book.exchangeTimestampNs
  localTimestampNs := localNow
  source := source

def emptyCanonicalSnapshot (symbol : String) : OrderBookSnapshot where
  symbol := symbol
  bids := []
  asks := []
  exchangeTimestampNs := 0
  localTimestampNs := 0
  source := symbol

/-! ## Events -/

inductive MarketDataHealthState
  | healthy
  | settling
  | repairing
  | degraded
  deriving DecidableEq

structure MarketDataHealth where
  marketId : String
  symbol : String
  state : MarketDataHealthState
  passiveReady : Bool
  takerReady : Bool
  reason : String
  localTimestampNs : ℕ
  deriving DecidableEq

structure QuoteTick where
  symbol : String
  bidPrice : ℚ
  bidQty : ℚ
  askPrice : ℚ
  askQty : ℚ
  exchangeTimestampNs : ℕ
  localTimestampNs : ℕ
  deriving DecidableEq

inductive MarketEvent
  | orderBook (book : OrderBookSnapshot)
  | quote (quote : QuoteTick)
  | marketDataHealth (health : MarketDataHealth)
  deriving DecidableEq

/-- The event is a book of the same symbol. -/
def MarketEvent.isBookOf (symbol : String) : MarketEvent → Bool
  | .orderBook book => book.symbol = symbol
  | _ => false

variable (events : List MarketEvent)

/-- `push_latest_order_book`: a newer book of a symbol replaces the one in the batch. -/
def pushLatestOrderBook (event : MarketEvent) : List MarketEvent :=
  match event with
  | .orderBook incoming => events.eraseP (·.isBookOf incoming.symbol) ++ [event]
  | _ => events ++ [event]

/-- `push`, of an optional event. -/
def pushSome : Option MarketEvent → List MarketEvent
  | some event => events ++ [event]
  | none => events

def pushLatestSome : Option MarketEvent → List MarketEvent
  | some event => pushLatestOrderBook events event
  | none => events

/-! ## The state of the feed -/

structure ClobCanonicalRole where
  conditionId : String
  upToken : String
  isDown : Bool
  conditionIdentity : Option ℕ
  deriving DecidableEq

structure PendingHealthRecovery where
  dueAt : ℕ
  reason : String
  deriving DecidableEq

structure ClobLocalBooks where
  tokenBooks : AList fun _ : String => ClobLocalBook := ∅
  roles : AList fun _ : String => ClobCanonicalRole := ∅
  currentTicks : AList fun _ : String => ℚ := ∅
  tickVersions : AList fun _ : String => ℕ := ∅
  canonicalVersions : AList fun _ : String => ClobBookVersion := ∅
  canonicalBooks : AList fun _ : String => OrderBookSnapshot := ∅
  quoteVersions : AList fun _ : String => ClobBookVersion := ∅
  pendingBbo : AList fun _ : String => PendingBboCheck := ∅
  quarantinedTokens : Finset String := ∅
  degradedTokens : Finset String := ∅
  healthStates : AList fun _ : String => MarketDataHealthState := ∅
  pendingHealthRecoveries : AList fun _ : String => PendingHealthRecovery := ∅
  wireSequence : ℕ := 0

structure CanonicalEventSpec where
  conditionId : String
  upToken : String
  downToken : String
  /-- The tick size, if its text is a decimal. -/
  tickSize : Option ℚ

abbrev Identities := AList fun _ : String => Option ℕ

def internClobConditionIdentity (identities : Identities) (condition : String) :
    Option ℕ × Identities :=
  match identities.lookup condition with
  | some identity => (identity, identities)
  | none =>
    let next := if identities.entries.length < 2 ^ 16 then some identities.entries.length else none
    (next, identities.insert condition next)

/-- One event of the subscription. -/
def addSpec (acc : Identities × ClobLocalBooks) (spec : CanonicalEventSpec) :
    Identities × ClobLocalBooks :=
  let (identity, identities) := internClobConditionIdentity acc.1 spec.conditionId
  let s := acc.2
  let role (isDown : Bool) : ClobCanonicalRole :=
    ⟨spec.conditionId, spec.upToken, isDown, identity⟩
  (identities, { s with
    canonicalBooks :=
      if (s.canonicalBooks.lookup spec.conditionId).isSome then s.canonicalBooks
      else s.canonicalBooks.insert spec.conditionId (emptyCanonicalSnapshot spec.upToken)
    currentTicks :=
      match spec.tickSize with
      | some tick => s.currentTicks.insert spec.conditionId tick
      | none => s.currentTicks
    roles := (s.roles.insert spec.upToken (role false)).insert spec.downToken (role true) })

namespace ClobLocalBooks

def new (specs : List CanonicalEventSpec) : ClobLocalBooks := (specs.foldl addSpec (∅, {})).2

variable (s : ClobLocalBooks)

variable (token : String)

/-- `market_key`: the condition of a token, or the token itself. -/
def marketKey : String :=
  match s.roles.lookup token with
  | some role => role.conditionId
  | none => token

def conditionIsSeeded (conditionId : String) : Bool :=
  let tokens := s.roles.entries.filter fun e => e.2.conditionId = conditionId
  !tokens.isEmpty && tokens.all fun e => (s.tokenBooks.lookup e.1).isSome

/-! ## Health -/

def desiredHealthState (conditionId : String) : Option MarketDataHealthState :=
  if !s.conditionIsSeeded conditionId then none
  else if ∃ token ∈ s.degradedTokens, s.marketKey token = conditionId then some .degraded
  else if ∃ token ∈ s.quarantinedTokens, s.marketKey token = conditionId then some .repairing
  else if s.pendingBbo.entries.any fun e => s.marketKey e.1 = conditionId then some .settling
  else some .healthy

def healthEvent (conditionId fallbackToken : String)
    (state : MarketDataHealthState) (reason : String) (localNow : ℕ) : MarketEvent :=
  let candidate := s.roles.entries.find? fun e => e.2.conditionId = conditionId && !e.2.isDown
  let ready : Bool × Bool :=
    match state with
    | .healthy => (true, true)
    | .settling | .repairing => (true, false)
    | .degraded => (false, false)
  .marketDataHealth {
    marketId := conditionId
    symbol := (candidate.map (·.1)).getD fallbackToken
    state := state
    passiveReady := ready.1
    takerReady := ready.2
    reason := reason
    localTimestampNs := localNow }

def reconcileHealth (reason : String) (observedAt localNow : ℕ) :
    ClobLocalBooks × Option MarketEvent :=
  let key := s.marketKey token
  match s.desiredHealthState key with
  | none => (s, none)
  | some state =>
    let previous := s.healthStates.lookup key
    let recovery := s.pendingHealthRecoveries.lookup key
    if previous = some state ∧ recovery = none then (s, none)
    else if state = .healthy ∧ previous.any (· ≠ .healthy) then
      -- the first healthy observation starts the stable interval
      match recovery with
      | some _ => (s, none)
      | none =>
        let started : PendingHealthRecovery :=
          ⟨observedAt + clobHealthRecoveryStableInterval, reason⟩
        ({ s with pendingHealthRecoveries := s.pendingHealthRecoveries.insert key started }, none)
    else
      let s := { s with pendingHealthRecoveries := s.pendingHealthRecoveries.erase key }
      if previous = some state then (s, none)
      else ({ s with healthStates := s.healthStates.insert key state },
        some (s.healthEvent key token state reason localNow))

/-- One condition of `flush_health_recoveries_due`. -/
def flushHealthRecovery (localNow : ℕ) (acc : ClobLocalBooks × List MarketEvent)
    (conditionId : String) : ClobLocalBooks × List MarketEvent :=
  let (s, events) := acc
  match s.pendingHealthRecoveries.lookup conditionId with
  | none => (s, events)
  | some pending =>
    let s := { s with pendingHealthRecoveries := s.pendingHealthRecoveries.erase conditionId }
    if s.desiredHealthState conditionId = some .healthy ∧
        (s.healthStates.lookup conditionId).any (· ≠ .healthy) then
      ({ s with healthStates := s.healthStates.insert conditionId .healthy },
        events ++ [s.healthEvent conditionId conditionId .healthy pending.reason localNow])
    else (s, events)

/-- Conditions whose stable interval is over, in the order of their names. -/
def dueRecoveries (now : ℕ) : List String :=
  ((s.pendingHealthRecoveries.entries.filter fun e => e.2.dueAt ≤ now).map (·.1)).insertionSort
    (· ≤ ·)

def flushHealthRecoveriesDue (now localNow : ℕ) : ClobLocalBooks × List MarketEvent :=
  (s.dueRecoveries now).foldl (flushHealthRecovery localNow) (s, [])

def markRepairFailed (reason : String) (observedAt localNow : ℕ) :
    ClobLocalBooks × Option MarketEvent :=
  { s with degradedTokens := insert token s.degradedTokens }.reconcileHealth token reason
    observedAt localNow

/-! ## Publication of books -/

def marketIsQuarantined : Bool :=
  decide (∃ candidate ∈ s.quarantinedTokens,
    candidate = token ∨ s.marketKey candidate = s.marketKey token)

def nextSequence : ℕ × ClobLocalBooks :=
  (s.wireSequence + 1, { s with wireSequence := s.wireSequence + 1 })

def canonicalizeToken (localNow : ℕ) : ClobLocalBooks × Option MarketEvent :=
  if (s.pendingBbo.lookup token).isSome ∨ s.marketIsQuarantined token then (s, none)
  else
    match s.tokenBooks.lookup token with
    | none => (s, none)
    | some book =>
      if !book.isSemanticallyValid then (s, none)
      else
        match s.roles.lookup token with
        | none => (s, some (.orderBook (book.snapshot token token false localNow)))
        | some role =>
          if (s.canonicalVersions.lookup role.conditionId).any (book.version.isBefore ·) then
            (s, none)
          else
            let snapshot := book.snapshot token role.upToken role.isDown localNow
            ({ s with
              canonicalVersions := s.canonicalVersions.insert role.conditionId book.version
              canonicalBooks := s.canonicalBooks.insert role.conditionId snapshot },
              some (.orderBook snapshot))

def canonicalSnapshotForToken : Option MarketEvent :=
  match s.roles.lookup token with
  | none => none
  | some role =>
    match s.canonicalVersions.lookup role.conditionId with
    | none => none
    | some _ => (s.canonicalBooks.lookup role.conditionId).map .orderBook

def canonicalizeQuote (quote : QuoteTick) : ClobLocalBooks × Option MarketEvent :=
  let (sequence, s) := s.nextSequence
  match s.roles.lookup quote.symbol with
  | none => (s, some (.quote quote))
  | some role =>
    let version : ClobBookVersion := ⟨quote.exchangeTimestampNs, sequence⟩
    if (s.quoteVersions.lookup role.conditionId).any (version.isBefore ·) then (s, none)
    else
      let quote :=
        if role.isDown then
          { quote with bidPrice := 1 - quote.askPrice, askPrice := 1 - quote.bidPrice }
        else quote
      ({ s with quoteVersions := s.quoteVersions.insert role.conditionId version },
        some (.quote { quote with symbol := role.upToken }))

end ClobLocalBooks

/-! ## Full books -/

inductive ClobBookSource
  | websocket
  | restRepair
  deriving DecidableEq

def ClobBookSource.reason : ClobBookSource → String
  | .websocket => "authoritative websocket book"
  | .restRepair => "authoritative REST repair"

structure BookLevel where
  price : String
  size : String

structure BookFields where
  assetId : String
  bids : List BookLevel
  asks : List BookLevel
  timestamp : Option ℕ

inductive ClobBookApplyOutcome
  | applied (events : List MarketEvent)
  | superseded (incomingTimestampNs currentTimestampNs : ℕ)

def parseLevels (lib : DecimalLib) (levels : List BookLevel) : Except String Levels :=
  levels.foldlM (fun (parsed : Levels) level => do
    let price ← orError s!"invalid price {level.price}" (lib.fromStr (trimText level.price))
    let size ← orError s!"invalid size {level.size}" (lib.fromStr (trimText level.size))
    if price ≤ 0 ∨ 1 ≤ price ∨ size ≤ 0 then
      .error s!"invalid level price={lib.display price} size={lib.display size}"
    else .ok (parsed.insert price size)) ∅

namespace ClobLocalBooks

/-- A full book is authoritative: it ends the check and the quarantine of its token. -/
def acceptBook (s : ClobLocalBooks) (symbol : String) (book : ClobLocalBook) : ClobLocalBooks :=
  { s with
    pendingBbo := s.pendingBbo.erase symbol
    quarantinedTokens := s.quarantinedTokens.erase symbol
    degradedTokens := s.degradedTokens.erase symbol
    tokenBooks := s.tokenBooks.insert symbol book }

/-- Publication after a full book. The first book of a token may repeat the newer book of its
condition. -/
def publishBook (s : ClobLocalBooks) (symbol : String) (initialSnapshot : Bool)
    (receivedAt localNow : ℕ) (source : ClobBookSource) : ClobLocalBooks × List MarketEvent :=
  let (s, event) := s.canonicalizeToken symbol localNow
  let event := event.or <|
    if initialSnapshot && s.desiredHealthState (s.marketKey symbol) = some .healthy then
      s.canonicalSnapshotForToken symbol
    else none
  let (s, health) := s.reconcileHealth symbol source.reason receivedAt localNow
  (s, pushSome (pushSome [] event) health)

def applyBook (lib : DecimalLib) (s : ClobLocalBooks) (fields : BookFields)
    (receivedAt localNow : ℕ) (source : ClobBookSource) :
    ClobLocalBooks × Except String ClobBookApplyOutcome :=
  let symbol := fields.assetId
  if trimText symbol = "" then (s, .error "book has empty asset_id")
  else
    let ts := timestampValueToNs fields.timestamp localNow
    let current := s.tokenBooks.lookup symbol
    match current.filter (ts < ·.exchangeTimestampNs) with
    | some current => (s, .ok (.superseded ts current.exchangeTimestampNs))
    | none =>
      match (do
        let bids ← parseLevels lib fields.bids
        let asks ← parseLevels lib fields.asks
        .ok (bids, asks)) with
      | .error e => (s, .error e)
      | .ok (bids, asks) =>
        let (sequence, s) := s.nextSequence
        let book : ClobLocalBook := ⟨bids, asks, ts, sequence, none⟩
        if !book.isSemanticallyValid then (s, .error s!"crossed book token={symbol}")
        else
          let (s, events) := (s.acceptBook symbol book).publishBook symbol current.isNone
            receivedAt localNow source
          (s, .ok (.applied events))

end ClobLocalBooks

end HexAgent.LocalBooks
