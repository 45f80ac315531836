import HexAgent.Exchange.ExecutionCache
import HexAgent.Exchange.ColdReplay

/-!
# Delivery of private events to strategies

The private owner of an account routes every order and trade event to the strategy that owns the
order, before the cold path books it. A window of delivered lifecycle ranks suppresses replays. A
trade whose fee was not attributed yet takes a detour: the cold path attributes the fee, and the
completed repair delivers the update under the status of the durable ledger.

What the shared state answers while one event is routed is given with the event (`RouteContext`).
The owner also keeps two logs that the code does not have: what was delivered, and which identities
the window has evicted.
-/

namespace HexAgent.Exchange

structure FastPrivateUpdate where
  owner : ℕ
  update : OrderUpdate
  identity : PrivateRouteIdentity
  execution : Option FrozenTradeExecution := none
  deriving DecidableEq

/-- Answers of the shared state while one event is routed. -/
structure RouteContext where
  lookupPrivateOrderOwnership : String → Option OrderOwnership
  lookupOrderOwnership : String → Option OrderOwnership
  /-- Numeric owner of a strategy instance. -/
  strategyOwner : String → Option ℕ
  /-- `trade_lifecycle_is_durably_covered`. -/
  durablyCovered : TradePayload → Bool
  validateTradeEvent : TradePayload → Except String PrivateTradeRole
  hasPrivateTradeIdentity : String → Bool
  /-- `trade_payload_requires_revalidation`. -/
  requiresRevalidation : TradePayload → Bool
  /-- `archived_private_event_hint`. -/
  archivedHint : PrivateEvent → Bool
  /-- Gross notional of `normalize_taker_execution`. -/
  normalizeTakerExecution : TradePayload → Except String ℚ
  /-- The execution of a new taker fill, under the fee basis of the account. -/
  freezeExecution : TradePayload → Except String FrozenTradeExecution
  /-- Rows that the cold path has acknowledged. -/
  acked : Fingerprint → Bool
  /-- Registered probe orders. -/
  isProbe : String → Bool
  /-- Hand an update to the strategy, or register it with the given recovery generation first. -/
  send : Option ℕ → FastPrivateUpdate → Except String Unit

/-! ## One event -/

/-- `close_enough`. -/
def CloseEnough (left right : ℚ) : Prop :=
  |left - right| ≤ max (1 / 10 ^ 9) (max |left| |right| * (1 / 10 ^ 8))

instance (left right : ℚ) : Decidable (CloseEnough left right) :=
  inferInstanceAs (Decidable (_ ≤ _))

/-- Status of an order event. -/
def orderEventStatus (p : OrderPayload) (tolerance : ℚ) : Except String OrderStatus :=
  match p.lifecycle with
  | .placement => .ok .accepted
  | .update =>
    if p.originalSize ≤ p.sizeMatched + tolerance then .ok .filled
    else if tolerance < p.sizeMatched then .ok .partiallyFilled
    else .ok .accepted
  | .cancellation => .ok .cancelled
  | .other text => .error s!"unsupported order lifecycle type `{text}`"

/-- Delivery rank of an order status. -/
def orderEventRank : OrderStatus → ℕ
  | .accepted => 1
  | .partiallyFilled => 2
  | .filled | .cancelled => 3
  | _ => 0

/-- The first trade that a list names for the second time. -/
def repeatedTrade (trades : List String) : Option String :=
  trades.zipIdx.findSome? fun (tradeId, i) => if tradeId ∈ trades.take i then some tradeId else none

variable (ctx : RouteContext)

/-- The order branch of `route_private_event_fast_owned`. -/
def routeOrderEvent (p : OrderPayload) : Except String (List FastPrivateUpdate) :=
  let tolerance := max (1 / 10 ^ 9) (|p.originalSize| * (1 / 10 ^ 8))
  if p.originalSize ≤ 0 ∨ p.sizeMatched < 0 ∨ p.originalSize + tolerance < p.sizeMatched ∨
      p.price ≤ 0 ∨ 1 + 1 / 10 ^ 8 < p.price then
    .error s!"invalid order lifecycle economics order_id={p.orderId}"
  else match ctx.lookupPrivateOrderOwnership p.orderId with
    | none => .error s!"unowned private order lifecycle event for order_id `{p.orderId}`"
    | some ownership =>
      if ownership.tokenId ≠ p.assetId ∨ ownership.side ≠ p.side ∨
          ¬CloseEnough ownership.quantity p.originalSize ∨ ¬CloseEnough ownership.price p.price then
        .error (s!"order lifecycle invariant mismatch coid={ownership.clientOrderId} " ++
          s!"order_id={p.orderId}")
      else match orderEventStatus p tolerance with
        | .error text => .error text
        | .ok status =>
          match repeatedTrade p.associateTrades with
          | some tradeId =>
            .error s!"order lifecycle associate_trades contains duplicate id `{tradeId}`"
          | none =>
            if tolerance < p.sizeMatched ∧ p.associateTrades = [] then
              .error s!"matched order lifecycle is missing associate_trades order_id={p.orderId}"
            else match ctx.strategyOwner ownership.instanceId with
              | none => .error (s!"private lifecycle instance={ownership.instanceId} " ++
                  "has no numeric strategy owner")
              | some owner => .ok [
                { owner := owner
                  identity := ⟨privateRouteFingerprint 'o' [p.orderId], orderEventRank status⟩
                  update :=
                    { clientOrderId := ownership.clientOrderId
                      symbol := p.assetId
                      side := p.side
                      exchangeOrderId := some p.orderId
                      status := status
                      remainingQuantity := max (p.originalSize - p.sizeMatched) 0
                      avgFillPrice := p.price
                      hasOrderAudit := true } }]

/-- Update of one trade leg. -/
def tradeUpdate (clientOrderId symbol orderId key : String) (side : Side) (liquidity : Liquidity)
    (status : OrderStatus) (quantity price : ℚ) : OrderUpdate where
  clientOrderId := clientOrderId
  symbol := symbol
  side := side
  exchangeOrderId := some orderId
  status := status
  liquidity := some liquidity
  filledQuantity := quantity
  avgFillPrice := price
  tradeId := some key

/-- Status and rank of a repaired trade in the durable ledger. -/
def durableStatus : Account.TradeStatus → OrderStatus × ℕ
  | .confirmed => (.filled, 3)
  | .failed => (.failed, 4)
  | .mined => (.partiallyFilled, 2)
  | _ => (.partiallyFilled, 1)

/-- Status and rank under which a repaired trade is delivered: those of the durable ledger, unless
the event itself is ahead of a ledger that is not terminal. -/
def repairStatus (proof : Account.TradeStatus) (incoming : Option VenueStatus) : OrderStatus × ℕ :=
  let durable := durableStatus proof
  let (_, status, rank) := privateStatus incoming
  if durable.2 < 3 ∧ durable.2 < rank then (status, rank) else durable

section

variable (cache : PrivateExecutionCache) (p : TradePayload)

/-- The branch of `route_private_event_fast_owned` for a repaired trade. -/
def routeRepairedTrade (proof : Account.TradeOwnership) : Except String (List FastPrivateUpdate) :=
  match cache.lookup p.tradeId (p.takerOrderId.getD "") p.assetId p.side p.size p.price false with
  | .error text => .error text
  | .ok none => .error "historical repaired execution is missing"
  | .ok (some execution) =>
    match ctx.strategyOwner proof.instanceId with
    | none => .error "historical repaired trade has no numeric strategy owner"
    | some owner =>
      let delivered := repairStatus proof.status p.status
      .ok [
        { owner := owner
          identity := ⟨privateRouteFingerprint 't' [p.tradeId], delivered.2⟩
          execution := some execution
          update := tradeUpdate proof.clientOrderId proof.tokenId proof.orderId proof.tradeKey
            proof.side .taker delivered.1 proof.quantity execution.price }]

/-- One own order of a maker trade; historical terminal legs without an owner are left to the cold
path. -/
def routeMakerLeg (name : VenueStatus) (status : OrderStatus) (rank : ℕ) (leg : MakerLeg) :
    Except String (Option FastPrivateUpdate) :=
  match ctx.lookupOrderOwnership leg.orderId with
  | none =>
    if name = .confirmed ∨ name = .failed then .ok none
    else .error s!"unowned maker trade `{p.tradeId}` order_id `{leg.orderId}`"
  | some ownership =>
    if ownership.tokenId ≠ leg.assetId ∨ ownership.side ≠ leg.side then
      .error s!"maker trade ownership mismatch trade={p.tradeId} order_id={leg.orderId}"
    else match cache.lookup p.tradeId leg.orderId leg.assetId leg.side leg.matchedAmount leg.price
        true with
      | .error text => .error text
      | .ok _ =>
        match ctx.strategyOwner ownership.instanceId with
        | none => .error (s!"private maker trade instance={ownership.instanceId} " ++
            "has no numeric strategy owner")
        | some owner => .ok (some
          { owner := owner
            identity := ⟨privateRouteFingerprint 'm' [p.tradeId, leg.orderId], rank⟩
            update := tradeUpdate ownership.clientOrderId leg.assetId leg.orderId
              s!"{p.tradeId}:{normalizeOrderId leg.orderId}" leg.side .maker status
              leg.matchedAmount leg.price })

/-- The own orders of a maker trade. -/
def routeMakerTrade (name : VenueStatus) (status : OrderStatus) (rank : ℕ) :
    List MakerLeg → Except String (List FastPrivateUpdate)
  | [] => .ok []
  | leg :: legs =>
    match routeMakerLeg ctx cache p name status rank leg with
    | .error text => .error text
    | .ok routed =>
      match routeMakerTrade name status rank legs with
      | .error text => .error text
      | .ok rest => .ok (routed.toList ++ rest)

/-- The frozen execution of a taker fill: a replay is compared with it, a new fill freezes it. -/
def takerExecution (orderId : String) (cached : Option FrozenTradeExecution) :
    Except String (FrozenTradeExecution × PrivateExecutionCache) :=
  match cached with
  | some execution =>
    match execution.grossNotional with
    | none => .ok (execution, cache)
    | some gross =>
      if p.hasMakerOrders then
        match ctx.normalizeTakerExecution p with
        | .error text => .error text
        | .ok notional =>
          if 1 / 10 ^ 6 < |notional - gross| then
            .error "private frozen actual execution notional changed"
          else .ok (execution, cache)
      else if 1 / 10 ^ 7 < |p.price - execution.rawPrice| ∧
          1 / 10 ^ 7 < |p.price - execution.price| then
        .error "private replay is missing execution evidence"
      else .ok (execution, cache)
  | none =>
    match ctx.freezeExecution p with
    | .error text => .error text
    | .ok execution =>
      match cache.insert ctx.acked p.tradeId orderId p.assetId p.side p.size false execution with
      | .error text => .error text
      | .ok cache => .ok (execution, cache)

/-- The taker branch of `route_private_event_fast_owned`. -/
def routeTakerTrade (name : VenueStatus) (status : OrderStatus) (rank : ℕ) :
    PrivateExecutionCache × Except String (List FastPrivateUpdate) :=
  let orderId := p.takerOrderId.getD ""
  match ctx.lookupOrderOwnership orderId with
  | none =>
    if name = .confirmed ∨ name = .failed then (cache, .ok [])
    else (cache, .error s!"unowned taker trade `{p.tradeId}` order_id `{orderId}`")
  | some ownership =>
    if ownership.tokenId ≠ p.assetId ∨ ownership.side ≠ p.side then
      (cache, .error s!"taker trade ownership mismatch trade={p.tradeId} order_id={orderId}")
    else match cache.lookup p.tradeId orderId p.assetId p.side p.size p.price false with
      | .error text => (cache, .error text)
      | .ok cached =>
        -- A reclaimed row is historical, never a new fill.
        if cached.isNone ∧ ctx.hasPrivateTradeIdentity p.tradeId then (cache, .ok [])
        else match takerExecution ctx cache p orderId cached with
          | .error text => (cache, .error text)
          | .ok (execution, cache) =>
            if (p.side = .buy ∧ ownership.price + 1 / 10 ^ 6 < execution.price) ∨
                (p.side = .sell ∧ execution.price + 1 / 10 ^ 6 < ownership.price) ∨
                ownership.quantity + 1 / 10 ^ 6 < p.size then
              (cache, .error "private actual execution violates owned order limit/quantity")
            else match ctx.strategyOwner ownership.instanceId with
              | none => (cache, .error (s!"private taker trade instance={ownership.instanceId} " ++
                  "has no numeric strategy owner"))
              | some owner => (cache, .ok [
                { owner := owner
                  identity := ⟨privateRouteFingerprint 't' [p.tradeId], rank⟩
                  execution := some execution
                  update := tradeUpdate ownership.clientOrderId p.assetId orderId p.tradeId p.side
                    .taker status p.size execution.price }])

def routePrivateEventFastOwned :
    PrivateEvent → PrivateExecutionCache × Except String (List FastPrivateUpdate)
  | .order p => (cache, routeOrderEvent ctx p)
  | .trade p =>
    match cache.repairOwnership p.tradeId (p.takerOrderId.getD "") with
    | some proof => (cache, routeRepairedTrade ctx cache p proof)
    | none =>
      let (name, status, rank) := privateStatus p.status
      -- A later durable edge is the high-water mark of a replay.
      if 0 < rank ∧ ctx.durablyCovered p then (cache, .ok [])
      else match ctx.validateTradeEvent p with
        | .error text => (cache, .error text)
        | .ok role =>
          if rank = 0 then (cache, .ok [])
          else match role with
            | .maker => (cache, routeMakerTrade ctx cache p name status rank p.makerLegs)
            | .taker => routeTakerTrade ctx cache p name status rank

end

/-! ## Delivery -/

/-- `PrivateRouteDedupe`, with the log of what was delivered and of what the window forgot. -/
structure PrivateRouteDedupe where
  window : RankWindow Fingerprint := { capacity := terminalGapReplayDedupeCapacity }
  executionCache : PrivateExecutionCache := {}
  repairInflight : Bool := false
  delivered : List FastPrivateUpdate := []
  forgotten : List Fingerprint := []

variable (generation : Option ℕ)

/-- `dispatch_private_update`: whether the update was sent; pushes for probe orders are muted. -/
def dispatchPrivateUpdate (u : FastPrivateUpdate) : Except String Bool :=
  if u.update.clientOrderId = "" ∧ u.update.exchangeOrderId.any ctx.isProbe then .ok false
  else (ctx.send generation u).map fun _ => true

def dispatchRepairedPrivateUpdate (owner : String) (u : FastPrivateUpdate) : Except String Bool :=
  match generation with
  | some generation =>
    if ctx.strategyOwner owner ≠ some u.owner then .error "historical repaired owner route changed"
    else (ctx.send (some generation) u).map fun _ => true
  | none => dispatchPrivateUpdate ctx none u

namespace PrivateRouteDedupe

variable (o : PrivateRouteDedupe)

def seen (identity : PrivateRouteIdentity) : Bool :=
  o.window.seen identity.fingerprint identity.rank

/-- The state after an update was dispatched. -/
def commit (u : FastPrivateUpdate) (sent : Bool) : PrivateRouteDedupe :=
  let window := o.window.remember u.identity.fingerprint u.identity.rank
  { o with
    window := window
    executionCache := o.executionCache.markDelivered u.identity
    delivered := if sent then o.delivered ++ [u] else o.delivered
    forgotten := o.forgotten ++
      (u.identity.fingerprint :: o.window.ranks.keys).filter (· ∉ window.ranks) }

/-- Deliver one update, unless this edge or a later one was delivered. -/
def deliver (ctx : RouteContext) (generation : Option ℕ) (repaired : Bool) (u : FastPrivateUpdate) :
    Except String PrivateRouteDedupe :=
  if o.seen u.identity then .ok o
  else if repaired then
    match o.executionCache.repairInstance u.identity with
    | none => .error "historical repair owner certificate missing"
    | some owner => (dispatchRepairedPrivateUpdate ctx generation owner u).map (o.commit u)
  else (dispatchPrivateUpdate ctx generation u).map (o.commit u)

end PrivateRouteDedupe

/-- Deliver the updates of one event; what was delivered before a failure stays. -/
def deliverRouted (ctx : RouteContext) (generation : Option ℕ) (repaired : Bool) :
    PrivateRouteDedupe → List FastPrivateUpdate → PrivateRouteDedupe × Except String Unit
  | o, [] => (o, .ok ())
  | o, u :: us =>
    match o.deliver ctx generation repaired u with
    | .error text => (o, .error text)
    | .ok o => deliverRouted ctx generation repaired o us

/-! ## The normal route -/

structure RoutedPrivateBatch where
  events : List PrivateEventDelta := []
  identities : List PrivateRouteIdentity := []
  durableSkips : ℕ := 0

/-- The cached row of a trade event satisfies `test`. -/
def rowTest (test : String → String → Bool → Bool) : PrivateEvent → Bool
  | .order _ => false
  | .trade p => p.tradeId ≠ "" && p.takerOrderId.any fun order => test p.tradeId order false

/-- A check on the payload of a trade event. -/
def tradeTest (test : TradePayload → Bool) : PrivateEvent → Bool
  | .order _ => false
  | .trade p => test p

/-- An event that is covered already, or that waits for the cold path, is not routed. -/
def routeUnlessHeld (cache : PrivateExecutionCache) (e : PrivateEvent)
    (held : Bool) : PrivateExecutionCache × Except String (List FastPrivateUpdate) :=
  if held then (cache, .ok []) else routePrivateEventFastOwned ctx cache e

/-- One event of `route_private_batch`. -/
def routePrivateEvent (coldCommitted : Option (RankWindow Fingerprint))
    (o : PrivateRouteDedupe) (batch : RoutedPrivateBatch) (ctx : RouteContext)
    (e : PrivateEventDelta) : PrivateRouteDedupe × Except String RoutedPrivateBatch :=
  let needsRepair := rowTest o.executionCache.needsRepair e.event
  let needsDelivery := rowTest o.executionCache.needsDelivery e.event
  let covered := !needsRepair && !needsDelivery && tradeTest ctx.durablyCovered e.event
  let needsArchive := !covered && !e.archiveChecked && ctx.archivedHint e.event
  if needsRepair ∧ o.repairInflight then
    (o, .error "historical private execution repair is already in flight; replay required")
  else if needsArchive ∧ o.repairInflight then
    (o, .error "historical archive lookup is already in flight; replay required")
  else
    let (cache, routed) :=
      routeUnlessHeld ctx o.executionCache e.event (covered || needsRepair || needsArchive)
    let o := { o with executionCache := cache }
    match routed with
    | .error text => (o, .error text)
    | .ok routed =>
      let coldAlreadyCommitted := !routed.isEmpty && !tradeTest ctx.requiresRevalidation e.event &&
        coldCommitted.any fun window => routed.all fun u =>
          window.seen u.identity.fingerprint u.identity.rank
      let e := { e with
        needsExecutionRepair := needsRepair
        needsArchiveLookup := needsArchive
        execution := (routed.filterMap fun u => u.execution).getLast?.or e.execution }
      match deliverRouted ctx generation needsDelivery o routed with
      | (o, .error text) => (o, .error text)
      | (o, .ok ()) =>
        if covered then (o, .ok { batch with durableSkips := batch.durableSkips + 1 })
        else if coldAlreadyCommitted then (o, .ok batch)
        else (o, .ok { batch with
          events := batch.events ++ [e]
          identities := batch.identities ++ routed.map fun u => u.identity })

/-- The loop of `route_private_batch`. -/
def routePrivateEvents (generation : Option ℕ) (coldCommitted : Option (RankWindow Fingerprint)) :
    PrivateRouteDedupe → RoutedPrivateBatch → List (RouteContext × PrivateEventDelta) →
      PrivateRouteDedupe × Except String RoutedPrivateBatch
  | o, batch, [] => (o, .ok batch)
  | o, batch, (ctx, e) :: events =>
    match routePrivateEvent generation coldCommitted o batch ctx e with
    | (o, .error text) => (o, .error text)
    | (o, .ok batch) => routePrivateEvents generation coldCommitted o batch events

/-- A batch holds an event that waits for a repair or an archive lookup. -/
def RoutedPrivateBatch.ownsRepairCredit (batch : RoutedPrivateBatch) : Bool :=
  batch.events.any fun e => e.needsExecutionRepair || e.needsArchiveLookup

def routePrivateBatch (coldCommitted : Option (RankWindow Fingerprint))
    (o : PrivateRouteDedupe) (events : List (RouteContext × PrivateEventDelta)) :
    PrivateRouteDedupe × Except String RoutedPrivateBatch :=
  match routePrivateEvents generation coldCommitted o {} events with
  | (o, .error text) => (o, .error text)
  | (o, .ok batch) =>
    ({ o with repairInflight := o.repairInflight || batch.ownsRepairCredit }, .ok batch)

/-! ## The repair path -/

/-- `PrivateExecutionRepairReply`; `validated` is `validate_terminal_replay_scope`. -/
structure PrivateExecutionRepairReply where
  archive : Bool := false
  events : List (RouteContext × PrivateEventDelta) := []
  seeds : List (RouteContext × PrivateExecutionSeed) := []
  generation : Option ℕ := none
  result : Except String Unit := .ok ()
  validated : Except String Unit := .ok ()
  /-- Whether the cold lane takes the events of an archive reply. -/
  enqueued : Bool := true

/-- Store the attributed fees of a reply. -/
def repairSeeds (cache : PrivateExecutionCache) :
    List (RouteContext × PrivateExecutionSeed) → PrivateExecutionCache × Except String Unit
  | [] => (cache, .ok ())
  | (ctx, seed) :: seeds =>
    match cache.repair ctx.acked seed with
    | .error text => (cache, .error text)
    | .ok cache => repairSeeds cache seeds

/-- Deliver the updates of one repaired event and acknowledge them. -/
def deliverRepaired (ctx : RouteContext) (generation : Option ℕ) :
    PrivateRouteDedupe → List FastPrivateUpdate → PrivateRouteDedupe × Except String Unit
  | o, [] => (o, .ok ())
  | o, u :: us =>
    match o.deliver ctx generation true u with
    | .error text => (o, .error text)
    | .ok o => deliverRepaired ctx generation
        { o with executionCache := o.executionCache.acknowledge u.identity } us

/-- The events of a completed repair. -/
def finishRepairedEvents (generation : Option ℕ) :
    PrivateRouteDedupe → List (RouteContext × PrivateEventDelta) →
      PrivateRouteDedupe × Except String Unit
  | o, [] => (o, .ok ())
  | o, (ctx, e) :: events =>
    let (cache, routed) := routePrivateEventFastOwned ctx o.executionCache e.event
    let o := { o with executionCache := cache }
    match routed with
    | .error text => (o, .error text)
    | .ok [] => (o, .error "historical repaired trade has no strategy owner delivery")
    | .ok routed =>
      match deliverRepaired ctx generation o routed with
      | (o, .error text) => (o, .error text)
      | (o, .ok ()) => finishRepairedEvents generation o events

def finishPrivateExecutionRepair (o : PrivateRouteDedupe) (reply : PrivateExecutionRepairReply) :
    PrivateRouteDedupe × Except String Unit :=
  let o := { o with repairInflight := false }
  match reply.result with
  | .error text => (o, .error text)
  | .ok () =>
    if reply.archive then
      -- An archive lookup found nothing to repair here: the events take the normal route.
      match reply.validated with
      | .error text => (o, .error text)
      | .ok () =>
        match routePrivateBatch reply.generation none o reply.events with
        | (o, .error text) => (o, .error text)
        | (o, .ok batch) =>
          if batch.events = [] ∨ reply.enqueued then (o, .ok ())
          else ({ o with repairInflight := false },
            .error "history archive resume lane unavailable; replay required")
    else
      let (cache, seeded) := repairSeeds o.executionCache reply.seeds
      let o := { o with executionCache := cache }
      match seeded, reply.validated with
      | .error text, _ => (o, .error text)
      | .ok (), .error text => (o, .error text)
      | .ok (), .ok () => finishRepairedEvents reply.generation o reply.events

/-! ## The owner -/

/-- State of the private owner of an account. -/
structure PrivateOwner where
  route : PrivateRouteDedupe := {}
  coldCommitted : RankWindow Fingerprint := { capacity := terminalGapReplayDedupeCapacity }

/-- Messages to the owner; `enqueued` tells whether the cold lane takes the routed batch. -/
inductive PrivateOwnerCommand
  | live (generation : Option ℕ) (events : List (RouteContext × PrivateEventDelta))
      (enqueued : Bool)
  | replay (generation : Option ℕ) (validated : Bool)
      (events : List (RouteContext × PrivateEventDelta)) (enqueued : Bool)
  | repair (reply : PrivateExecutionRepairReply)
  | coldAck (identities : List PrivateRouteIdentity)

/-- A batch that the cold lane refuses gives its repair credit back. -/
def afterBatch (enqueued : Bool) :
    PrivateRouteDedupe × Except String RoutedPrivateBatch → PrivateRouteDedupe
  | (o, .error _) => o
  | (o, .ok batch) =>
    if batch.events ≠ [] ∧ !enqueued ∧ batch.ownsRepairCredit then
      { o with repairInflight := false }
    else o

/-- One message of the loop of `spawn_private_apply_worker`. -/
def PrivateOwner.step (s : PrivateOwner) : PrivateOwnerCommand → PrivateOwner
  | .live generation events enqueued =>
    let routed := routePrivateBatch generation (some s.coldCommitted) s.route events
    { s with route := afterBatch enqueued routed }
  | .replay generation validated events enqueued =>
    let routed := routePrivateBatch generation none s.route events
    if validated then { s with route := afterBatch enqueued routed } else s
  | .repair reply => { s with route := (finishPrivateExecutionRepair s.route reply).1 }
  | .coldAck identities => identities.foldl (fun s identity =>
      { route := { s.route with
          executionCache := s.route.executionCache.acknowledge identity }
        coldCommitted := s.coldCommitted.remember identity.fingerprint identity.rank }) s

/-- The messages of a run, in order. -/
def PrivateOwner.run (s : PrivateOwner) (commands : List PrivateOwnerCommand) : PrivateOwner :=
  commands.foldl PrivateOwner.step s

end HexAgent.Exchange
