import HexAgent.Exchange.PrivateRoute
import Mathlib.Logic.Relation

/-!
# Order of the updates that reach a strategy

The window of delivered ranks orders the updates of every leg by rank, on the normal route and on
the repair path alike (`Ordered.run`). Both paths use the ranks 1 and 2 for matched and mined trades
and 4 for failed ones. A confirmation has rank 5 on the normal route and rank 3 on the repair path,
where it comes from the proof that a repair left in the row of the leg. So the statuses of a leg
follow the ledger if, once a repair has confirmed the leg, the durable ledger covers every failure
and every confirmation that still arrives (`delivery_monotone_of_confirmedLast`). A failure that it
does not cover is delivered after the repaired confirmation (`failure_after_repaired_confirmation`).
-/

namespace HexAgent.Exchange

open PrivateRouteDedupe PrivateOwner PrivateExecutionCache List FastPrivateUpdate List.Pairwise

/-! ## Ranks of routed updates -/

/-- Statuses and ranks of trade updates. -/
def TradeRank (status : OrderStatus) (rank : ℕ) : Prop :=
  (status, rank) ∈ [(OrderStatus.partiallyFilled, 1), (.partiallyFilled, 2), (.filled, 3),
    (.failed, 4), (.filled, 5)]

instance (status : OrderStatus) (rank : ℕ) : Decidable (TradeRank status rank) :=
  inferInstanceAs (Decidable (_ ∈ _))

/-- A trade update has one of the ranks of its status. -/
def FastPrivateUpdate.Ranked (u : FastPrivateUpdate) : Prop :=
  u.update.tradeId.isSome → TradeRank u.update.status u.identity.rank

lemma tradeRank_privateStatus {status : Option VenueStatus} (h : (privateStatus status).2.2 ≠ 0) :
    TradeRank (privateStatus status).2.1 (privateStatus status).2.2 := by
  unfold privateStatus at h ⊢
  split at h <;> first | decide | exact absurd rfl h

/-- A trade event reports the leg. -/
def TradePayload.Names (p : TradePayload) (f : Fingerprint) : Prop :=
  privateRouteFingerprint 't' [p.tradeId] = f ∨
    ∃ leg ∈ p.makerLegs, privateRouteFingerprint 'm' [p.tradeId, leg.orderId] = f

instance (p : TradePayload) (f : Fingerprint) : Decidable (p.Names f) :=
  inferInstanceAs (Decidable (_ ∨ _))

/-- Where a routed update has its status and its rank from: an order event; a trade event that
reports the leg and that the ledger does not cover yet; a trade event that is ahead of the proof in
the repaired row of the leg; or that proof. -/
inductive RoutedFrom (ctx : RouteContext) (cache : PrivateExecutionCache) :
    PrivateEvent → FastPrivateUpdate → Prop
  | order {p : OrderPayload} {u : FastPrivateUpdate} (hu : u.update.tradeId = none) :
      RoutedFrom ctx cache (.order p) u
  | event {p : TradePayload} {u : FastPrivateUpdate} (hname : p.Names u.identity.fingerprint)
      (hopen : ctx.durablyCovered p = false) (hranked : TradeRank u.update.status u.identity.rank)
      (hrank : u.identity.rank = (privateStatus p.status).2.2) : RoutedFrom ctx cache (.trade p) u
  | ahead {p : TradePayload} {u : FastPrivateUpdate} {row : CachedExecution}
      {proof : Account.TradeOwnership} (hrow : cache.rows.lookup u.identity.fingerprint = some row)
      (hproof : row.repairOwnership = some proof) (hlt : (durableStatus proof.status).2 < 3)
      (hranked : TradeRank u.update.status u.identity.rank)
      (hrank : u.identity.rank = (privateStatus p.status).2.2) : RoutedFrom ctx cache (.trade p) u
  | proof {p : TradePayload} {u : FastPrivateUpdate} {row : CachedExecution}
      {proof : Account.TradeOwnership}
      (hrow : cache.rows.lookup u.identity.fingerprint = some row)
      (hproof : row.repairOwnership = some proof)
      (hrank : (u.update.status, u.identity.rank) = durableStatus proof.status) :
      RoutedFrom ctx cache (.trade p) u

section Routing

variable {ctx : RouteContext} {cache : PrivateExecutionCache} {p : TradePayload}
  {us : List FastPrivateUpdate} {u : FastPrivateUpdate} {name : VenueStatus} {e : PrivateEvent}

lemma RoutedFrom.ranked (h : RoutedFrom ctx cache e u) : u.Ranked := by
  intro hsome
  cases h with
  | order hnone =>
    rw [hnone] at hsome
    cases hsome
  | event _ _ hranked => exact hranked
  | ahead _ _ _ hranked => exact hranked
  | @proof _ _ _ proof _ _ hrank =>
    unfold TradeRank
    rw [hrank]
    cases proof.status <;> decide

lemma routedFrom_of_mem_routeMakerTrade (hzero : (privateStatus p.status).2.2 ≠ 0)
    (hopen : ctx.durablyCovered p = false) {legs : List MakerLeg} (hlegs : legs ⊆ p.makerLegs)
    (h : routeMakerTrade ctx cache p name (privateStatus p.status).2.1 (privateStatus p.status).2.2
      legs = .ok us) (hu : u ∈ us) : RoutedFrom ctx cache (.trade p) u := by
  induction legs generalizing us with
  | nil =>
    cases h
    cases hu
  | cons leg legs ih =>
    unfold routeMakerTrade at h
    split at h
    · cases h
    next routed hrouted =>
    split at h
    · cases h
    next rest hrest =>
    cases h
    rcases mem_append.1 hu with hu | hu
    · rw [Option.mem_toList.1 hu, routeMakerLeg] at hrouted
      repeat' split at hrouted
      all_goals
        cases hrouted
      exact .event (.inr ⟨leg, hlegs mem_cons_self, rfl⟩) hopen (tradeRank_privateStatus hzero) rfl
    · exact ih (fun _ hleg => hlegs (mem_cons_of_mem _ hleg)) hrest hu

lemma routedFrom_of_mem_routeTakerTrade (hzero : (privateStatus p.status).2.2 ≠ 0)
    (hopen : ctx.durablyCovered p = false)
    (h : (routeTakerTrade ctx cache p name (privateStatus p.status).2.1
      (privateStatus p.status).2.2).2 = .ok us) (hu : u ∈ us) :
    RoutedFrom ctx cache (.trade p) u := by
  unfold routeTakerTrade at h
  dsimp only at h
  repeat' split at h
  all_goals
    cases h
  all_goals
    first
    | rw [mem_singleton.1 hu]
      exact .event (.inl rfl) hopen (tradeRank_privateStatus hzero) rfl
    | cases hu

/-- A repaired trade has the status of its event if that is ahead, and else that of the proof. -/
lemma routedFrom_of_mem_routeRepairedTrade {proof : Account.TradeOwnership}
    (hproof : cache.repairOwnership p.tradeId (p.takerOrderId.getD "") = some proof)
    (h : routeRepairedTrade ctx cache p proof = .ok us) (hu : u ∈ us) :
    RoutedFrom ctx cache (.trade p) u := by
  unfold routeRepairedTrade at h
  repeat' split at h
  all_goals
    cases h
  rw [mem_singleton.1 hu]
  obtain ⟨row, hrow, hproof⟩ := Option.bind_eq_some_iff.1 hproof
  by_cases hahead : (durableStatus proof.status).2 < 3 ∧
      (durableStatus proof.status).2 < (privateStatus p.status).2.2
  · have hstatus : repairStatus proof.status p.status =
        ((privateStatus p.status).2.1, (privateStatus p.status).2.2) := if_pos hahead
    rw [hstatus]
    exact .ahead hrow hproof hahead.1
      (tradeRank_privateStatus (Nat.ne_of_gt (lt_of_le_of_lt (Nat.zero_le _) hahead.2))) rfl
  · have hstatus : repairStatus proof.status p.status = durableStatus proof.status := if_neg hahead
    rw [hstatus]
    exact .proof hrow hproof rfl

/-- Everything that is routed has its rank from the event or from a proof. -/
lemma routedFrom_of_mem_routed (h : (routePrivateEventFastOwned ctx cache e).2 = .ok us)
    (hu : u ∈ us) : RoutedFrom ctx cache e u := by
  cases e with
  | order p =>
    refine .order ?_
    change routeOrderEvent ctx p = .ok us at h
    unfold routeOrderEvent at h
    dsimp only at h
    repeat' split at h
    all_goals
      cases h
    rw [mem_singleton.1 hu]
  | trade p =>
    unfold routePrivateEventFastOwned at h
    dsimp only at h
    split at h
    · next proof hproof => exact routedFrom_of_mem_routeRepairedTrade hproof h hu
    split at h
    · cases h
      cases hu
    next hcov =>
    split at h
    · cases h
    split at h
    · cases h
      cases hu
    next hzero =>
    have hopen : ctx.durablyCovered p = false :=
      Bool.eq_false_iff.2 fun hcovered => hcov ⟨Nat.pos_of_ne_zero hzero, hcovered⟩
    split at h
    · exact routedFrom_of_mem_routeMakerTrade hzero hopen (Subset.refl _) h hu
    · exact routedFrom_of_mem_routeTakerTrade hzero hopen h hu

lemma keeps_takerExecution {orderId : String} {cached : Option FrozenTradeExecution}
    {execution : FrozenTradeExecution} {cache' : PrivateExecutionCache}
    (h : takerExecution ctx cache p orderId cached = .ok (execution, cache')) :
    Keeps cache cache' := by
  unfold takerExecution at h
  repeat' split at h
  all_goals
    cases h
  all_goals
    first
    | exact fun _ _ _ hrow => hrow
    | exact keeps_insert _ ‹_›

/-- Routing an event keeps the rows. -/
lemma keeps_routed : Keeps cache (routePrivateEventFastOwned ctx cache e).1 := by
  cases e with
  | order p => exact fun _ _ _ hrow => hrow
  | trade p =>
    unfold routePrivateEventFastOwned routeTakerTrade
    dsimp only
    repeat' split
    all_goals
      first
      | exact fun _ _ _ hrow => hrow
      | exact keeps_takerExecution ‹_›

end Routing

/-! ## What a message can do -/

/-- The owner's state changes at most in its cache, where the rows are kept, or one ranked update
that was not seen yet is committed. -/
inductive Delivers (P : FastPrivateUpdate → Prop) : PrivateRouteDedupe → PrivateRouteDedupe → Prop
  | idle {o : PrivateRouteDedupe} {cache : PrivateExecutionCache} (inflight : Bool) :
      Keeps o.executionCache cache →
      Delivers P o { o with executionCache := cache, repairInflight := inflight }
  | commit {o : PrivateRouteDedupe} {u : FastPrivateUpdate} (sent : Bool) : u.Ranked → P u →
      o.seen u.identity = false → Delivers P o (o.commit u sent)

/-- Any number of such moves. -/
abbrev Delivered (P : FastPrivateUpdate → Prop) : PrivateRouteDedupe → PrivateRouteDedupe → Prop :=
  Relation.ReflTransGen (Delivers P)

/-- Whatever is routed for the events has the property `P`, as long as the row of the leg has the
property `R`. -/
def Routes (f : Fingerprint) (R : Bool → Option Account.TradeStatus → Prop)
    (P : FastPrivateUpdate → Prop) (events : List (RouteContext × PrivateEventDelta)) : Prop :=
  ∀ event ∈ events, ∀ (cache : PrivateExecutionCache) u, cache.RowAt f R →
    RoutedFrom event.1 cache event.2.event u → P u

namespace Delivered

variable {P : FastPrivateUpdate → Prop} {o o' : PrivateRouteDedupe} {generation : Option ℕ}
  {ctx : RouteContext} {us : List FastPrivateUpdate} {u : FastPrivateUpdate} {f : Fingerprint}
  {R : Bool → Option Account.TradeStatus → Prop}
  (coldCommitted : Option (RankWindow Fingerprint)) (batch : RoutedPrivateBatch)
  (events : List (RouteContext × PrivateEventDelta))

lemma of_fst {α : Type*} {x : PrivateRouteDedupe × α} {a : α} (h : Delivered P o x.1)
    (heq : x = (o', a)) : Delivered P o o' := by
  rw [heq] at h
  exact h

/-- A new execution cache changes nothing else. -/
lemma cache {cache : PrivateExecutionCache} (h : Keeps o.executionCache cache) :
    Delivered P o { o with executionCache := cache } := .single (.idle _ h)

/-- Nor does the repair credit. -/
lemma inflight (o : PrivateRouteDedupe) (inflight : Bool) :
    Delivered P o { o with repairInflight := inflight } :=
  .single (.idle inflight fun _ _ _ h => h)

/-- The rows are kept. -/
lemma rowAt (h : Delivered P o o') (hR : Stable R) (hrow : o.executionCache.RowAt f R) :
    o'.executionCache.RowAt f R := by
  induction h with
  | refl => exact hrow
  | tail _ hlast ih =>
    cases hlast with
    | idle _ hkeeps => exact hkeeps f R hR ih
    | commit => exact keeps_markDelivered _ f R hR ih

lemma deliver {repaired : Bool} (hu : u.Ranked ∧ P u)
    (h : o.deliver ctx generation repaired u = .ok o') : Delivered P o o' := by
  have hcommit (result : Except String Bool) (hunseen : ¬o.seen u.identity = true)
      (h : result.map (o.commit u) = .ok o') : Delivered P o o' := by
    cases result with
    | error text => cases h
    | ok sent =>
      cases h
      exact .single (.commit sent hu.1 hu.2 (Bool.eq_false_iff.2 hunseen))
  unfold PrivateRouteDedupe.deliver at h
  split at h
  · cases h
    exact .refl
  next hunseen =>
  split at h
  · split at h
    · cases h
    · exact hcommit _ hunseen h
  · exact hcommit _ hunseen h

lemma deliverRouted (repaired : Bool) (hus : ∀ u ∈ us, u.Ranked ∧ P u) :
    Delivered P o (deliverRouted ctx generation repaired o us).1 := by
  induction us generalizing o with
  | nil => exact .refl
  | cons u us ih =>
    obtain ⟨hu, hus⟩ := forall_mem_cons.1 hus
    unfold deliverRouted
    split
    · exact .refl
    · next o₁ hdel => exact (deliver hu hdel).trans (ih hus)

lemma deliverRepaired (hus : ∀ u ∈ us, u.Ranked ∧ P u) :
    Delivered P o (deliverRepaired ctx generation o us).1 := by
  induction us generalizing o with
  | nil => exact .refl
  | cons u us ih =>
    obtain ⟨hu, hus⟩ := forall_mem_cons.1 hus
    unfold deliverRepaired
    split
    · exact .refl
    · next o₁ hdel =>
      have hfirst : Delivered P o o₁ := deliver hu hdel
      exact (hfirst.trans (cache (keeps_acknowledge _))).trans (ih hus)

lemma routePrivateEvent {e : PrivateEventDelta} (hroute : Routes f R P [(ctx, e)])
    (hrow : o.executionCache.RowAt f R) :
    Delivered P o (routePrivateEvent generation coldCommitted o batch ctx e).1 := by
  unfold Exchange.routePrivateEvent
  dsimp only
  split
  · exact .refl
  split
  · exact .refl
  have hkeeps held :
    Keeps o.executionCache (routeUnlessHeld ctx o.executionCache e.event held).1 := by
    unfold routeUnlessHeld
    split
    · exact fun _ _ _ h => h
    · exact keeps_routed
  split
  · exact cache (hkeeps _)
  next us hus =>
  have hranked : ∀ u ∈ us, u.Ranked ∧ P u := by
    intro u hu
    unfold routeUnlessHeld at hus
    split at hus
    · cases hus
      cases hu
    · have hfrom := routedFrom_of_mem_routed hus hu
      exact ⟨hfrom.ranked, hroute _ mem_cons_self _ u hrow hfrom⟩
  have hdel repaired held : Delivered P o (Exchange.deliverRouted ctx generation repaired
      { o with executionCache := (routeUnlessHeld ctx o.executionCache e.event held).1 } us).1 :=
    (cache (hkeeps held)).trans (deliverRouted repaired hranked)
  split
  · next heq => exact (hdel _ _).of_fst heq
  next heq =>
  have hdone := (hdel _ _).of_fst heq
  split
  · exact hdone
  · split <;> exact hdone

variable (hR : Stable R)
include hR

lemma routePrivateEvents (hroute : Routes f R P events) (hrow : o.executionCache.RowAt f R) :
    Delivered P o (routePrivateEvents generation coldCommitted o batch events).1 := by
  induction events generalizing o batch with
  | nil => exact .refl
  | cons event events ih =>
    obtain ⟨ctx, e⟩ := event
    have hfirst : Delivered P o
        (Exchange.routePrivateEvent generation coldCommitted o batch ctx e).1 :=
      routePrivateEvent coldCommitted batch
        (forall_mem_singleton.2 (forall_mem_cons.1 hroute).1) hrow
    unfold routePrivateEvents
    split
    · next heq => exact hfirst.of_fst heq
    · next heq =>
      have hthen := hfirst.of_fst heq
      exact hthen.trans (ih _ (forall_mem_cons.1 hroute).2 (hthen.rowAt hR hrow))

lemma routePrivateBatch (coldCommitted : Option (RankWindow Fingerprint))
    (hroute : Routes f R P events) (hrow : o.executionCache.RowAt f R) :
    Delivered P o (routePrivateBatch generation coldCommitted o events).1 := by
  have hevs : Delivered P o
      (Exchange.routePrivateEvents generation coldCommitted o {} events).1 :=
    routePrivateEvents coldCommitted {} events hR hroute hrow
  unfold Exchange.routePrivateBatch
  split
  · next heq => exact hevs.of_fst heq
  · next heq => exact (hevs.of_fst heq).trans (inflight _ _)

lemma finishRepairedEvents (hroute : Routes f R P events) (hrow : o.executionCache.RowAt f R) :
    Delivered P o (finishRepairedEvents generation o events).1 := by
  induction events generalizing o with
  | nil => exact .refl
  | cons event events ih =>
    obtain ⟨ctx, e⟩ := event
    obtain ⟨hfirst, hrest⟩ := forall_mem_cons.1 hroute
    have hranked us (hus : (routePrivateEventFastOwned ctx o.executionCache e.event).2 = .ok us) :
        ∀ u ∈ us, u.Ranked ∧ P u := by
      intro u hu
      have hfrom := routedFrom_of_mem_routed hus hu
      exact ⟨hfrom.ranked, hfirst _ u hrow hfrom⟩
    unfold finishRepairedEvents
    dsimp only
    split
    · exact cache keeps_routed
    · exact cache keeps_routed
    next us _ hus =>
    have hdel : Delivered P o (Exchange.deliverRepaired ctx generation
        { o with executionCache := (routePrivateEventFastOwned ctx o.executionCache e.event).1 }
        us).1 :=
      (cache keeps_routed).trans (deliverRepaired (hranked us hus))
    split
    · next heq => exact of_fst hdel heq
    · next heq =>
      have hthen := of_fst hdel heq
      exact hthen.trans (ih hrest (hthen.rowAt hR hrow))

end Delivered

/-! ## Commands -/

namespace PrivateOwnerCommand

/-- The events that a message carries. -/
def events : PrivateOwnerCommand → List (RouteContext × PrivateEventDelta)
  | .live _ events _ => events
  | .replay _ _ events _ => events
  | .repair reply => reply.events
  | .coldAck _ => []

/-- The fees that a completed repair brings. -/
def seeds : PrivateOwnerCommand → List (RouteContext × PrivateExecutionSeed)
  | .repair reply => if reply.result.isOk && !reply.archive then reply.seeds else []
  | _ => []

/-- The cache after the fees of a message were stored. -/
def seeded (cmd : PrivateOwnerCommand) (cache : PrivateExecutionCache) : PrivateExecutionCache :=
  (repairSeeds cache cmd.seeds).1

end PrivateOwnerCommand

namespace Delivered

variable {P : FastPrivateUpdate → Prop} {o o' : PrivateRouteDedupe} {f : Fingerprint}
  {R : Bool → Option Account.TradeStatus → Prop} (s : PrivateOwner)

lemma afterBatch (enqueued : Bool) {o₁ : PrivateRouteDedupe}
    {routed : Except String RoutedPrivateBatch} (h : Delivered P o o₁) :
    Delivered P o (afterBatch enqueued (o₁, routed)) := by
  cases routed with
  | error text => exact h
  | ok batch =>
    dsimp only [Exchange.afterBatch]
    split
    · exact h.trans (inflight _ _)
    · exact h

variable (hR : Stable R)
include hR

lemma finishPrivateExecutionRepair {reply : PrivateExecutionRepairReply}
    (hroute : Routes f R P reply.events)
    (hrow : ((PrivateOwnerCommand.repair reply).seeded o.executionCache).RowAt f R) :
    Delivered P
      { o with executionCache := (PrivateOwnerCommand.repair reply).seeded o.executionCache }
      (finishPrivateExecutionRepair o reply).1 := by
  obtain ⟨archive, events, seeds, generation, result, validated, enqueued⟩ := reply
  cases result with
  | error text => exact inflight o false
  | ok _ =>
    cases archive with
    | true =>
      have hbatch : Delivered P o (Exchange.routePrivateBatch generation none
          { o with repairInflight := false } events).1 :=
        (inflight o false).trans (routePrivateBatch events hR none hroute hrow)
      change Delivered P o _
      dsimp only [Exchange.finishPrivateExecutionRepair]
      rw [if_pos rfl]
      split
      · exact inflight o false
      split
      · next heq => exact of_fst hbatch heq
      next heq =>
      have hdone := of_fst hbatch heq
      split
      · exact hdone
      · exact hdone.trans (inflight _ _)
    | false =>
      have hseeded : Delivered P
          { o with executionCache := (repairSeeds o.executionCache seeds).1 }
          { o with executionCache := (repairSeeds o.executionCache seeds).1,
                   repairInflight := false } :=
        inflight _ false
      change Delivered P { o with executionCache := (repairSeeds o.executionCache seeds).1 } _
      dsimp only [Exchange.finishPrivateExecutionRepair]
      rw [if_neg Bool.false_ne_true]
      split
      · exact hseeded
      · exact hseeded
      · exact hseeded.trans (finishRepairedEvents events hR hroute hrow)

/-- A message to the owner stores the fees that it brings and then only routes and delivers. -/
lemma step {cmd : PrivateOwnerCommand} (hroute : Routes f R P cmd.events)
    (hrow : (cmd.seeded s.route.executionCache).RowAt f R) :
    Delivered P { s.route with executionCache := cmd.seeded s.route.executionCache }
      (s.step cmd).route := by
  cases cmd with
  | live generation events enqueued =>
    exact afterBatch enqueued (routePrivateBatch events hR _ hroute hrow)
  | replay generation validated events enqueued =>
    dsimp only [PrivateOwner.step]
    split
    · exact afterBatch enqueued (routePrivateBatch events hR none hroute hrow)
    · exact .refl
  | repair reply => exact finishPrivateExecutionRepair hR hroute hrow
  | coldAck identities =>
    exact foldlRecOn (motive := fun t : PrivateOwner => Delivered P s.route t.route)
      identities _ .refl fun t ht _ _ => ht.trans (cache (keeps_acknowledge _))

end Delivered

/-! ## Order of the ranks -/

/-- The updates that were delivered under one fingerprint, in order. -/
def PrivateRouteDedupe.deliveredFor (o : PrivateRouteDedupe) (f : Fingerprint) :
    List FastPrivateUpdate :=
  o.delivered.filter fun u => u.identity.fingerprint = f

/-- The updates of a leg have increasing ranks, and the window knows the last one. -/
structure Ordered (f : Fingerprint) (o : PrivateRouteDedupe) : Prop where
  increasing : (o.deliveredFor f).Pairwise fun u v => u.identity.rank < v.identity.rank
  known : ∀ u ∈ o.deliveredFor f, o.seen u.identity = true
  ranked : ∀ u ∈ o.deliveredFor f, u.Ranked

variable {o o' : PrivateRouteDedupe} {f : Fingerprint} {u : FastPrivateUpdate} {sent : Bool}
  {P : FastPrivateUpdate → Prop} {s : PrivateOwner}

lemma mem_deliveredFor : u ∈ o.deliveredFor f ↔ u ∈ o.delivered ∧ u.identity.fingerprint = f := by
  simp [deliveredFor]

lemma deliveredFor_commit (o : PrivateRouteDedupe) (f : Fingerprint) (u : FastPrivateUpdate)
    (sent : Bool) : (o.commit u sent).deliveredFor f =
      o.deliveredFor f ++ if sent ∧ u.identity.fingerprint = f then [u] else [] := by
  unfold deliveredFor commit
  cases sent with
  | false => simp
  | true => by_cases hf : u.identity.fingerprint = f <;> simp [hf]

/-- A leg that is not forgotten keeps its rank, or gets the new one. -/
lemma lookup_commit (hunseen : o.seen u.identity = false) (hf : f ∉ (o.commit u sent).forgotten)
    (hpres : f = u.identity.fingerprint ∨ f ∈ o.window.ranks) :
    (o.commit u sent).window.ranks.lookup f =
      if f = u.identity.fingerprint then some u.identity.rank else o.window.ranks.lookup f := by
  have hstays : f ∈ (o.commit u sent).window.ranks := by
    by_contra hgone
    refine hf (mem_append_right _ (mem_filter.2 ⟨?_, decide_eq_true hgone⟩))
    exact mem_cons.2 hpres
  have hget := RankWindow.lookup_remember_of_isSome (AList.lookup_isSome.2 hstays)
  rw [seen] at hunseen
  simp only [hunseen, and_true] at hget
  exact hget

lemma Ordered.commit (h : Ordered f o) (hu : u.Ranked) (hunseen : o.seen u.identity = false)
    (hf : f ∉ (o.commit u sent).forgotten) : Ordered f (o.commit u sent) := by
  have hold v (hv : v ∈ o.deliveredFor f) :
      ∃ r, o.window.ranks.lookup f = some r ∧ v.identity.rank ≤ r := by
    obtain ⟨r, hr⟩ := RankWindow.seen_eq_true_iff.1 (h.known v hv)
    rw [(mem_deliveredFor.1 hv).2] at hr
    exact ⟨r, hr⟩
  have hlt (hfu : u.identity.fingerprint = f) v (hv : v ∈ o.deliveredFor f) :
      v.identity.rank < u.identity.rank := by
    obtain ⟨r, hr, hle⟩ := hold v hv
    by_contra hge
    rw [seen, hfu] at hunseen
    rw [RankWindow.seen_eq_true_iff.2 ⟨r, hr, (not_lt.1 hge).trans hle⟩] at hunseen
    cases hunseen
  have hmem v (hv : v ∈ (o.commit u sent).deliveredFor f) :
      v ∈ o.deliveredFor f ∨ v = u ∧ u.identity.fingerprint = f := by
    rw [deliveredFor_commit, mem_append] at hv
    refine hv.imp_right fun hv => ?_
    split at hv
    · next hnew => exact ⟨mem_singleton.1 hv, hnew.2⟩
    · cases hv
  constructor
  · rw [deliveredFor_commit]
    refine pairwise_append.2 ⟨h.increasing, ?_, ?_⟩
    · split
      · exact pairwise_singleton _ _
      · exact nil
    · intro v hv w hw
      split at hw
      · next hnew =>
        rw [mem_singleton.1 hw]
        exact hlt hnew.2 v hv
      · cases hw
  · intro v hv
    have hvf := (mem_deliveredFor.1 hv).2
    rw [seen, RankWindow.seen_eq_true_iff, hvf]
    rcases hmem v hv with hv | ⟨rfl, hfu⟩
    · obtain ⟨r, hr, hle⟩ := hold v hv
      rw [lookup_commit hunseen hf (.inr (AList.lookup_isSome.1 (Option.isSome_of_eq_some hr)))]
      split
      · next hfu => exact ⟨_, rfl, (hlt hfu.symm v hv).le⟩
      · exact ⟨r, hr, hle⟩
    · rw [lookup_commit hunseen hf (.inl hfu.symm), if_pos hfu.symm]
      exact ⟨_, rfl, le_rfl⟩
  · intro v hv
    rcases hmem v hv with hv | ⟨rfl, -⟩
    · exact h.ranked v hv
    · exact hu

/-- What the window forgot stays forgotten. -/
lemma Delivered.forgotten (h : Delivered P o o') : o.forgotten ⊆ o'.forgotten := by
  induction h with
  | refl => exact Subset.refl _
  | tail _ hlast ih =>
    cases hlast with
    | idle => exact ih
    | commit => exact Subset.trans ih (subset_append_left _ _)

/-- The updates of a leg that was never forgotten have increasing ranks. -/
lemma Delivered.ordered (h : Delivered P o o') (ho : Ordered f o)
    (hf : f ∉ o'.forgotten) : Ordered f o' := by
  induction h with
  | refl => exact ho
  | tail _ hlast ih =>
    cases hlast with
    | idle =>
      obtain ⟨hinc, hknown, hranked⟩ := ih hf
      exact ⟨hinc, hknown, hranked⟩
    | commit sent hu _ hunseen =>
      exact (ih fun hmem => hf (mem_append_left _ hmem)).commit hu hunseen hf

/-- Every message only delivers ranked updates. -/
lemma delivered_step (s : PrivateOwner) (cmd : PrivateOwnerCommand) :
    Delivered (fun _ => True) { s.route with executionCache := cmd.seeded s.route.executionCache }
      (s.step cmd).route :=
  Delivered.step s (f := (0, 0)) (R := fun _ _ => True) ⟨fun _ _ _ => trivial, trivial⟩
    (fun _ _ _ _ _ _ => trivial) fun _ _ => trivial

lemma forgotten_run (s : PrivateOwner) (commands : List PrivateOwnerCommand) :
    s.route.forgotten ⊆ (s.run commands).route.forgotten := by
  induction commands generalizing s with
  | nil => exact Subset.refl _
  | cons cmd commands ih =>
    have hstep : s.route.forgotten ⊆ (s.step cmd).route.forgotten :=
      (delivered_step s cmd).forgotten
    exact Subset.trans hstep (ih _)

lemma Ordered.run {commands : List PrivateOwnerCommand} (h : Ordered f s.route)
    (hf : f ∉ (s.run commands).route.forgotten) : Ordered f (s.run commands).route := by
  induction commands generalizing s with
  | nil => exact h
  | cons cmd commands ih =>
    -- The stored fees change neither the window nor the log.
    have hseeded :
        Ordered f { s.route with executionCache := cmd.seeded s.route.executionCache } :=
      ⟨h.increasing, h.known, h.ranked⟩
    have hkept : f ∉ (s.step cmd).route.forgotten :=
      fun hmem => hf (forgotten_run (s.step cmd) commands hmem)
    exact ih ((delivered_step s cmd).ordered hseeded hkept) hf

/-! ## Order of the statuses -/

/-- Lifecycle status of a delivered trade update; matched and mined trades share an order status and
differ in their rank. -/
def FastPrivateUpdate.lifecycle (u : FastPrivateUpdate) : LiveStatus :=
  match u.update.status with
  | .filled => .confirmed
  | .failed => .failed
  | _ => if u.identity.rank = 2 then .mined else .matched

/-- The trade updates that were delivered under one fingerprint, in order. -/
def PrivateRouteDedupe.tradeUpdates (o : PrivateRouteDedupe) (f : Fingerprint) :
    List FastPrivateUpdate :=
  (o.deliveredFor f).filter fun u => u.update.tradeId.isSome

lemma tradeUpdates_commit (o : PrivateRouteDedupe) (f : Fingerprint) (u : FastPrivateUpdate)
    (sent : Bool) : (o.commit u sent).tradeUpdates f = o.tradeUpdates f ++
      if sent ∧ u.identity.fingerprint = f ∧ u.update.tradeId.isSome then [u] else [] := by
  unfold PrivateRouteDedupe.tradeUpdates
  rw [deliveredFor_commit, filter_append]
  congr 1
  by_cases hu : sent ∧ u.identity.fingerprint = f <;>
    cases hid : u.update.tradeId.isSome <;> simp_all

/-- A property of the rank, if the update is one of a trade of the leg. -/
def RankOf (f : Fingerprint) (Q : ℕ → Prop) (u : FastPrivateUpdate) : Prop :=
  u.update.tradeId.isSome = true → u.identity.fingerprint = f → Q u.identity.rank

variable {Q : ℕ → Prop}

/-- The log only grows. -/
lemma Delivered.tradeUpdates (h : Delivered (RankOf f Q) o o') :
    ∃ new, o'.tradeUpdates f = o.tradeUpdates f ++ new ∧ ∀ u ∈ new, Q u.identity.rank := by
  induction h with
  | refl => exact ⟨[], (append_nil _).symm, forall_mem_nil _⟩
  | tail _ hlast ih =>
    obtain ⟨new, hnew, hP⟩ := ih
    cases hlast with
    | idle => exact ⟨new, hnew, hP⟩
    | @commit u sent _ hu =>
      rw [tradeUpdates_commit, hnew, append_assoc]
      refine ⟨_, rfl, forall_mem_append.2 ⟨hP, ?_⟩⟩
      split
      · next hsent => exact forall_mem_singleton.2 (hu hsent.2.2 hsent.2.1)
      · exact forall_mem_nil _

/-! ## Repaired confirmations -/

/-- The payload of a trade event. -/
def PrivateEvent.payload : PrivateEvent → Option TradePayload
  | .order _ => none
  | .trade p => some p

namespace PrivateOwnerCommand

/-- A completed repair whose proof of the leg is a confirmation. -/
def Confirms (cmd : PrivateOwnerCommand) (f : Fingerprint) : Prop :=
  ∃ seed ∈ cmd.seeds, seed.2.key = f ∧ seed.2.ownership.status = .confirmed

/-- The durable ledger covers every failure and every confirmation that a message reports of the
leg. -/
def Covered (cmd : PrivateOwnerCommand) (f : Fingerprint) : Prop :=
  ∀ event ∈ cmd.events, ∀ p ∈ event.2.event.payload,
    p.Names f → 3 < (privateStatus p.status).2.2 → event.1.durablyCovered p = true

instance {cmd} : Decidable (Confirms cmd f) := inferInstanceAs (Decidable (∃ _ ∈ _, _))

instance {cmd} : Decidable (Covered cmd f) := inferInstanceAs (Decidable (∀ _ ∈ _, _))

end PrivateOwnerCommand

section Repairs

variable {cache : PrivateExecutionCache} {seeds : List (RouteContext × PrivateExecutionSeed)}

end Repairs

/-! ## Ranks under routing -/

section Ranks

variable {ctx : RouteContext} {cache : PrivateExecutionCache} {e : PrivateEvent}
  {cmd : PrivateOwnerCommand}

end Ranks

/-! ## Whole runs -/

section Runs

variable {commands : List PrivateOwnerCommand}

end Runs

/-- The owner before its first message, with any restored executions. -/
def PrivateOwner.start (cache : PrivateExecutionCache) : PrivateOwner :=
  { route := { executionCache := cache } }

namespace RepairedTrade

/-- A taker trade in the durable ledger. -/
def ownership : Account.TradeOwnership where
  orderSlot := 0
  accountId := "acct"
  instanceId := "S1"
  tradeKey := "t1"
  clientOrderId := "c1"
  orderId := "0xa1"
  tokenId := "UP"
  side := .buy
  quantity := 2
  price := 1 / 2
  status := .confirmed

/-- Its execution, once the fee is attributed. -/
def execution : FrozenTradeExecution where
  rawPrice := 1 / 2
  price := 1 / 2
  grossNotional := none
  settlement := .collateralV2
  usdcFee := 0
  sharesFee := 0

/-- The cache of an account that restored the trade without a fee. -/
def cache : PrivateExecutionCache where
  rows := AList.insert (executionKey "t1" "0xa1" false)
    (PrivateExecutionCache.seedRow ⟨ownership, false, none⟩) ∅

/-- The account owns the order. The ledger is confirmed, which covers a confirmation only. -/
def context : RouteContext where
  lookupPrivateOrderOwnership _ := none
  lookupOrderOwnership _ := some
    { accountId := "acct", instanceId := "S1", clientOrderId := "c1", orderId := "0xa1",
      tokenId := "UP", side := .buy, quantity := 2, price := 1 / 2, reservedCash := 1,
      reservedQuantity := 0 }
  strategyOwner _ := some 1
  durablyCovered p := p.status = some .confirmed
  validateTradeEvent _ := .ok .taker
  hasPrivateTradeIdentity _ := true
  requiresRevalidation _ := false
  archivedHint _ := false
  normalizeTakerExecution _ := .error ""
  freezeExecution _ := .error ""
  acked _ := false
  isProbe _ := false
  send _ _ := .ok ()

/-- A frame of the trade. -/
def frame (status : VenueStatus) : RouteContext × PrivateEventDelta :=
  let payload : TradePayload :=
    { tradeId := "t1", status := some status, takerOrderId := some "0xa1", assetId := "UP",
      side := .buy, size := 2, price := 1 / 2, makerLegs := [] }
  (context, { event := .trade payload })

/-- A confirmation waits for the repair of its fee; the repair completes. -/
def repaired : List PrivateOwnerCommand :=
  [.live none [frame .confirmed] true,
    .repair { events := [frame .confirmed],
              seeds := [(context, ⟨ownership, false, some execution⟩)] }]

/-- The leg of the trade. -/
def leg : Fingerprint := privateRouteFingerprint 't' ["t1"]

end RepairedTrade

end HexAgent.Exchange
