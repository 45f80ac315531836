import HexAgent.LocalBooks.Books

/-!
# Price changes and timers of the local books

A price-change frame changes levels of several tokens and reports the best prices that the venue
sees after it. A frame that only revises sizes is applied by a short path
(`tryApplyQuantityOnly`). All other frames are applied entry by entry, then every changed token is
checked against its report, and the books that pass are published. The timers publish changes that
did not move the best prices (`flushDue`) and end the checks that took too long
(`flushDeferredDue`).
-/

namespace HexAgent.LocalBooks

open HexAgent.Maintenance

structure PriceChangeEntry where
  assetId : String
  price : WireDecimal
  size : WireDecimal
  side : String
  bestBid : Option WireDecimal
  bestAsk : Option WireDecimal

structure PriceChangeFields where
  priceChanges : List PriceChangeEntry
  timestamp : Option ℕ

inductive BookSide
  | bid
  | ask
  deriving DecidableEq

/-- The side of an entry, by its text. -/
def parseSide (side : String) : Option BookSide :=
  let side := trim side.toList
  if eqIgnoreAsciiCase side "BUY".toList then some .bid
  else if eqIgnoreAsciiCase side "SELL".toList then some .ask
  else none

namespace ClobLocalBook

variable (book : ClobLocalBook)

def levels : BookSide → Levels
  | .bid => book.bids
  | .ask => book.asks

def setLevels (side : BookSide) (levels : Levels) : ClobLocalBook :=
  match side with
  | .bid => { book with bids := levels }
  | .ask => { book with asks := levels }

/-- A level is written, or deleted when its size is zero. -/
def writeLevel (side : BookSide) (price size : ℚ) : ClobLocalBook :=
  book.setLevels side <|
    if size = 0 then (book.levels side).erase price else (book.levels side).insert price size

/-- The book carries the time and the sequence number of its last change. -/
def stamp (ts sequence receivedAt : ℕ) : ClobLocalBook :=
  { book with
    exchangeTimestampNs := ts
    wireSequence := sequence
    dirtySince := some (book.dirtySince.getD receivedAt) }

end ClobLocalBook

/-- Prices and sizes that a level of a price change may have. -/
def isValidChange (price size : ℚ) : Bool := 0 < price ∧ price < 1 ∧ 0 ≤ size

def MarketEvent.isOrderBook : MarketEvent → Bool
  | .orderBook _ => true
  | _ => false

namespace ClobLocalBooks

/-! ## Frames that only revise sizes -/

structure QuantityUpdate where
  token : String
  price : ℚ
  size : ℚ
  side : BookSide

variable (lib : DecimalLib) (s : ClobLocalBooks)

/-- A reported price is absent or the one of the book. -/
def reportAgrees (reported : Option WireDecimal) (expected : Option ℚ) : Bool :=
  reported.all fun value => (value.decimal lib).map normalizeReportedBbo = some expected

/-- One entry of the preflight of `try_apply_quantity_only`. -/
def preflight (ts : ℕ) (change : PriceChangeEntry) : Option QuantityUpdate := do
  let token := change.assetId
  let role ← s.roles.lookup token
  guard (s.healthStates.lookup role.conditionId = some .healthy)
  guard (s.pendingBbo.lookup token = none)
  guard (s.pendingHealthRecoveries.lookup role.conditionId = none)
  guard (s.marketIsQuarantined token = false)
  let book ← s.tokenBooks.lookup token
  guard (book.exchangeTimestampNs ≤ ts)
  guard (book.isSemanticallyValid = true)
  let price ← change.price.decimal lib
  let size ← change.size.decimal lib
  guard (0 < price ∧ price < 1 ∧ 0 < size)
  let side ← parseSide change.side
  guard ((book.levels side).contains price = true)
  guard (reportAgrees lib change.bestBid book.top.1 = true)
  guard (reportAgrees lib change.bestAsk book.top.2 = true)
  some ⟨token, price, size, side⟩

def applyQuantityUpdate (ts receivedAt : ℕ) (s : ClobLocalBooks) (update : QuantityUpdate) :
    ClobLocalBooks :=
  let (sequence, s) := s.nextSequence
  { s with tokenBooks := s.tokenBooks.modifyRow update.token fun book =>
      (book.setLevels update.side
        ((book.levels update.side).insert update.price update.size)).stamp ts sequence receivedAt }

variable (fields : PriceChangeFields)

def tryApplyQuantityOnly (receivedAt ts : ℕ) : Option ClobLocalBooks :=
  if fields.priceChanges.isEmpty then none
  else (fields.priceChanges.mapM (s.preflight lib ts)).map
    (·.foldl (applyQuantityUpdate ts receivedAt) s)

/-! ## The entries of a frame -/

/-- What a frame remembers of a token. -/
structure PriceChangeTokenScratch where
  conditionIdentity : Option ℕ
  before : Option Top
  reportedBbo : ReportedBbo
  hasReportedBbo : Bool
  hadPendingBbo : Bool

abbrev Scratch := AList fun _ : String => PriceChangeTokenScratch

variable (token : String)

/-- The row of a token before the frame. -/
def freshScratch : PriceChangeTokenScratch where
  conditionIdentity := (s.roles.lookup token).bind (·.conditionIdentity)
  before := none
  reportedBbo := {}
  hasReportedBbo := false
  hadPendingBbo := (s.pendingBbo.lookup token).isSome

variable (scratch : Scratch)

def enterToken (change : PriceChangeEntry) : Scratch :=
  if (scratch.lookup change.assetId).isSome then scratch
  else scratch.insert change.assetId (s.freshScratch change.assetId)

def scratchOf (changes : List PriceChangeEntry) : Scratch :=
  changes.foldl s.enterToken ∅

/-- A reported price that cannot be decoded is ignored. -/
def noteReported (noted : Option (Option ℚ)) (reported : Option WireDecimal) : Option (Option ℚ) :=
  ((reported.bind (·.decimal lib)).map normalizeReportedBbo).or noted

/-- One entry of a frame. -/
def applyChange (ts receivedAt : ℕ) (acc : ClobLocalBooks × Scratch)
    (change : PriceChangeEntry) : ClobLocalBooks × Scratch :=
  let (s, scratch) := acc
  let token := change.assetId
  match change.price.decimal lib, change.size.decimal lib, s.tokenBooks.lookup token with
  | some price, some size, some book =>
    if !isValidChange price size then acc
    else if ts < book.exchangeTimestampNs then acc
    else
      let (sequence, s) := s.nextSequence
      let scratch := scratch.modifyRow token fun entry =>
        { entry with before := some (entry.before.getD book.top) }
      match parseSide change.side with
      | none => (s, scratch)
      | some side =>
        let changed := (book.writeLevel side price size).stamp ts sequence receivedAt
        ({ s with tokenBooks := s.tokenBooks.insert token changed },
          scratch.modifyRow token fun entry => { entry with
            hasReportedBbo := true
            reportedBbo :=
              { bid := noteReported lib entry.reportedBbo.bid change.bestBid
                ask := noteReported lib entry.reportedBbo.ask change.bestAsk } })
  | _, _, _ => acc

def topOf : Top :=
  ((s.tokenBooks.lookup token).map (·.top)).getD (none, none)

/-! ## Checks against the reported prices -/

/-- The check of a token after a frame with time `ts` and a report. A newer report replaces the
expectation, one of the same time is merged. -/
def nextCheck (pending : Option PendingBboCheck) (ts receivedAt : ℕ) (newer : ReportedBbo) :
    PendingBboCheck :=
  let pending := pending.getD ⟨ts, {}, receivedAt⟩
  if pending.exchangeTimestampNs < ts then
    { pending with exchangeTimestampNs := ts, expected := newer }
  else if pending.exchangeTimestampNs = ts then
    { pending with expected := pending.expected.merge newer }
  else pending

/-- The best prices of the venue, where the book disagrees with them. -/
def advertisedL1 (expected : ReportedBbo) (actual : Top) : Option (ℚ × ℚ) :=
  if expected.agrees actual then none
  else
    match expected.bid.join, expected.ask.join with
    | some bid, some ask => if bid < ask then some (bid, ask) else none
    | _, _ => none

/-- One token of the validation of a frame. -/
def validateToken (ts receivedAt localNow : ℕ)
    (acc : ClobLocalBooks × List MarketEvent) (token : String) :
    ClobLocalBooks × List MarketEvent :=
  let (s, events) := acc
  match scratch.lookup token with
  | some ⟨_, some _, newer, _, _⟩ =>
    let actual := s.topOf token
    let pending := nextCheck (s.pendingBbo.lookup token) ts receivedAt newer
    let s := { s with pendingBbo := s.pendingBbo.insert token pending }
    match s.roles.lookup token, advertisedL1 pending.expected actual with
    | some _, some (bid, ask) =>
      let (s, event) := s.canonicalizeQuote ⟨token, bid, 0, ask, 0, ts, localNow⟩
      (s, pushSome events event)
    | _, _ => (s, events)
  | _ => acc

def resolvePendingIfReady : ClobLocalBooks × Bool :=
  match s.pendingBbo.lookup token with
  | none => (s, false)
  | some pending =>
    if pending.expected.agrees (s.topOf token) ∧
        (s.tokenBooks.lookup token).any (·.isSemanticallyValid) then
      ({ s with
        pendingBbo := s.pendingBbo.erase token
        quarantinedTokens := s.quarantinedTokens.erase token
        degradedTokens := s.degradedTokens.erase token }, true)
    else (s, false)

def clearDirty : ClobLocalBooks :=
  { s with tokenBooks := s.tokenBooks.modifyRow token fun book =>
      { book with dirtySince := none } }

variable (localNow : ℕ)

/-- One touched token: its check is resolved, and a changed or released book is published. -/
def releaseToken (acc : ClobLocalBooks × List MarketEvent)
    (token : String) : ClobLocalBooks × List MarketEvent :=
  let (s, events) := acc
  match scratch.lookup token with
  | none => acc
  | some entry =>
    let topChanged := (s.tokenBooks.lookup token).any fun book => entry.before ≠ some book.top
    let semanticallyValid := (s.tokenBooks.lookup token).any (·.isSemanticallyValid)
    let (s, resolved) := s.resolvePendingIfReady token
    if (topChanged || (entry.hadPendingBbo && resolved)) && semanticallyValid &&
        (s.pendingBbo.lookup token).isNone && !s.marketIsQuarantined token then
      let (s, event) := (s.clearDirty token).canonicalizeToken token localNow
      (s, pushLatestSome events event)
    else (s, events)

/-- Tokens with a report, in the order of their names. -/
def validationOrder : List String :=
  ((scratch.entries.filter fun e => e.2.hasReportedBbo).map (·.1)).insertionSort (· ≤ ·)

/-- Tokens with a touched book, in the order of the wire. -/
def touchedOrder : List String :=
  let touched := scratch.entries.filterMap fun e =>
    if e.2.before.isSome then (s.tokenBooks.lookup e.1).map fun book => (book.wireSequence, e.1)
    else none
  (touched.insertionSort (·.1 ≤ ·.1)).map (·.2)

/-- Two tokens of a frame have the same market, by their interned identities if both have one. -/
def sameMarket (a b : String) : Bool :=
  match (scratch.lookup a).bind (·.conditionIdentity),
      (scratch.lookup b).bind (·.conditionIdentity) with
  | some x, some y => x = y
  | _, _ => s.marketKey a = s.marketKey b

/-- One touched token of the last loop: the health of each market is reconciled once. -/
def reconcileToken (receivedAt localNow : ℕ)
    (acc : ClobLocalBooks × List MarketEvent × List String) (token : String) :
    ClobLocalBooks × List MarketEvent × List String :=
  let (s, events, reconciled) := acc
  if reconciled.any fun prior => s.sameMarket scratch prior token then acc
  else
    let (s, health) := s.reconcileHealth token "BBO checkpoint state changed" receivedAt localNow
    (s, pushSome events health, reconciled ++ [token])

structure PriceChangeOutcome where
  events : List MarketEvent
  bboChangeSnapshots : ℕ
  repairTokens : List String

/-- A frame after its entries were applied. -/
def settleFrame (ts receivedAt localNow : ℕ) : ClobLocalBooks × List MarketEvent :=
  let (s, events) := (validationOrder scratch).foldl
    (validateToken scratch ts receivedAt localNow) (s, [])
  let touched := s.touchedOrder scratch
  let (s, events) := touched.foldl (releaseToken scratch localNow) (s, events)
  let (s, events, _) := touched.foldl (reconcileToken scratch receivedAt localNow) (s, events, [])
  (s, events)

def applyPriceChange (receivedAt localNow : ℕ) : ClobLocalBooks × PriceChangeOutcome :=
  let ts := timestampValueToNs fields.timestamp localNow
  match s.tryApplyQuantityOnly lib fields receivedAt ts with
  | some s => (s, ⟨[], 0, []⟩)
  | none =>
    let (s, scratch) := fields.priceChanges.foldl (applyChange lib ts receivedAt)
      (s, s.scratchOf fields.priceChanges)
    let (s, events) := s.settleFrame scratch ts receivedAt localNow
    (s, ⟨events, (events.filter MarketEvent.isOrderBook).length, []⟩)

/-! ## Timers and tick sizes -/

def finalizePendingBbo
    (emitDiagnostic : Bool) : ClobLocalBooks × Option MarketEvent × Option String :=
  match s.pendingBbo.lookup token with
  | none => (s, none, none)
  | some pending =>
    let s := { s with pendingBbo := s.pendingBbo.erase token }
    if pending.expected.agrees (s.topOf token) ∧
        (s.tokenBooks.lookup token).any (·.isSemanticallyValid) then
      let (s, event) := (s.clearDirty token).canonicalizeToken token localNow
      (s, event, none)
    else
      ({ s with quarantinedTokens := insert token s.quarantinedTokens }, none,
        if emitDiagnostic then some token else none)

structure ClobDeferredBatch where
  events : List MarketEvent := []
  repairTokens : List String := []

/-- One token of `flush_deferred_due`. -/
def deferredToken (now localNow : ℕ) (activeTokens : List String)
    (acc : ClobLocalBooks × ClobDeferredBatch) (token : String) :
    ClobLocalBooks × ClobDeferredBatch :=
  let (s, batch) := acc
  let active := decide (token ∈ activeTokens)
  let (s, event, repair) := s.finalizePendingBbo token localNow active
  let events := pushLatestSome batch.events event
  let repairTokens := batch.repairTokens ++ (repair.filter fun _ => active).toList
  let reason :=
    if repairTokens.getLast? = some token then
      "BBO mismatch repair deadline reached; authoritative repair pending"
    else "BBO settled"
  let (s, health) := s.reconcileHealth token reason now localNow
  (s, ⟨pushSome events health, repairTokens⟩)

/-- Tokens whose check takes too long, in the order of their names. -/
def dueChecks (now : ℕ) : List String :=
  ((s.pendingBbo.entries.filter fun e =>
    clobBboRepairInterval ≤ now - e.2.firstObservedAt).map (·.1)).insertionSort (· ≤ ·)

def flushDeferredDue (now localNow : ℕ) (activeTokens : List String) :
    ClobLocalBooks × ClobDeferredBatch :=
  let (s, batch) := (s.dueChecks now).foldl (deferredToken now localNow activeTokens) (s, {})
  let (s, recovered) := s.flushHealthRecoveriesDue now localNow
  (s, { batch with events := batch.events ++ recovered })

/-- One book of `flush_due`. -/
def flushToken (acc : ClobLocalBooks × List MarketEvent) (token : String) :
    ClobLocalBooks × List MarketEvent :=
  let (s, event) := (acc.1.clearDirty token).canonicalizeToken token localNow
  (s, pushLatestSome acc.2 event)

/-- Tokens with a change that has waited long enough, in the order of the wire. -/
def dueBooks (now : ℕ) : List String :=
  let due := s.tokenBooks.entries.filterMap fun e =>
    if (s.pendingBbo.lookup e.1).isSome ∨ s.marketIsQuarantined e.1 then none
    else e.2.dirtySince.bind fun since =>
      if clobBookCoalesceInterval ≤ now - since then some (e.2.wireSequence, e.1) else none
  (due.insertionSort (·.1 ≤ ·.1)).map (·.2)

def flushDue (now localNow : ℕ) : ClobLocalBooks × List MarketEvent :=
  (s.dueBooks now).foldl (flushToken localNow) (s, [])

structure TickSizeChange where
  symbol : String
  /-- The tick sizes, where their texts are decimals. -/
  newTickSize : Option ℚ
  oldTickSize : Option ℚ
  exchangeTimestampNs : ℕ

/-- `apply_tick_size_change`. It publishes nothing. -/
def applyTickSizeChange (change : TickSizeChange) : ClobLocalBooks :=
  match change.newTickSize, change.oldTickSize with
  | some newTick, some oldTick =>
    let key := s.marketKey change.symbol
    if (s.tickVersions.lookup key).any (change.exchangeTimestampNs < ·) then s
    else if (s.currentTicks.lookup key).any fun currentTick =>
        (currentTick ≠ newTick && currentTick ≠ oldTick) || currentTick < newTick then s
    else { s with
      currentTicks := s.currentTicks.insert key newTick
      tickVersions := s.tickVersions.insert key change.exchangeTimestampNs }
  | _, _ => s

end ClobLocalBooks

/-! ## Calls -/

inductive Call
  | book (fields : BookFields) (receivedAt localNow : ℕ) (source : ClobBookSource)
  | priceChange (fields : PriceChangeFields) (receivedAt localNow : ℕ)
  | flush (now localNow : ℕ)
  | flushDeferred (now localNow : ℕ) (activeTokens : List String)
  | tickSize (change : ClobLocalBooks.TickSizeChange) (receivedAt localNow : ℕ)
  | repairFailed (token reason : String) (observedAt localNow : ℕ)

/-- The instant of a call. -/
def Call.time : Call → ℕ
  | .book _ receivedAt _ _ => receivedAt
  | .priceChange _ receivedAt _ => receivedAt
  | .flush now _ => now
  | .flushDeferred now _ _ => now
  | .tickSize _ receivedAt _ => receivedAt
  | .repairFailed _ _ observedAt _ => observedAt

/-- Events of a full book. -/
def bookEvents : Except String ClobBookApplyOutcome → List MarketEvent
  | .ok (.applied events) => events
  | _ => []

/-- State and events of a call. -/
def ClobLocalBooks.call (lib : DecimalLib) (s : ClobLocalBooks) :
    Call → ClobLocalBooks × List MarketEvent
  | .book fields receivedAt localNow source =>
    let (s, result) := s.applyBook lib fields receivedAt localNow source
    (s, bookEvents result)
  | .priceChange fields receivedAt localNow =>
    let (s, outcome) := s.applyPriceChange lib fields receivedAt localNow
    (s, outcome.events)
  | .flush now localNow => s.flushDue now localNow
  | .flushDeferred now localNow activeTokens =>
    let (s, batch) := s.flushDeferredDue now localNow activeTokens
    (s, batch.events)
  | .tickSize change _ _ => (s.applyTickSizeChange change, [])
  | .repairFailed token reason observedAt localNow =>
    let (s, health) := s.markRepairFailed token reason observedAt localNow
    (s, pushSome [] health)

/-- A call with the state before it, its events and the state after it. -/
structure Observed where
  pre : ClobLocalBooks
  call : Call
  events : List MarketEvent
  post : ClobLocalBooks

/-- The observation of a call. -/
def ClobLocalBooks.observed (lib : DecimalLib) (s : ClobLocalBooks) (call : Call) : Observed where
  pre := s
  call := call
  events := (s.call lib call).2
  post := (s.call lib call).1

/-- The observations of a sequence of calls. -/
def ClobLocalBooks.observe (lib : DecimalLib) : ClobLocalBooks → List Call → List Observed
  | _, [] => []
  | s, call :: calls => s.observed lib call :: observe lib (s.call lib call).1 calls

end HexAgent.LocalBooks
