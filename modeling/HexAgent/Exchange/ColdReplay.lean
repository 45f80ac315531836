import HexAgent.Exchange.PrivateEvents
import HexAgent.ToMathlib.RankWindow
import HexAgent.ToMathlib.Trace
import Mathlib.Algebra.Order.Ring.Rat
import Mathlib.Algebra.Order.Group.Unbundled.Abs

/-!
# Suppression of replays on the cold path

The owner of an account applies private events one after the other. Before it validates an event
again, it asks two bounded windows whether the same lifecycle edge, or a later one, was applied
already. The windows rank the statuses of a trade on their own: a failure above a confirmation. In
the ledger of live trades a confirmation is above a failure, because a failed settlement can be
retried. So a confirmation that follows a failure is dropped while the window remembers the failure.

What the account and the clock answer for an event is given with it (`ColdContext`).
-/

namespace HexAgent.Exchange

open List TradePayload LiveStatus Option RankWindow

variable {p : TradePayload} {key : String × VenueStatus}

/-! ## The ledger of live trades -/

structure LiveTrade where
  tradeId : String
  assetId : String
  side : Side
  size : ℚ
  price : ℚ
  status : LiveStatus
  isMaker : Bool
  deriving DecidableEq

/-- The trades of `LivePositionManager`. -/
structure LivePositionManager where
  trades : AList fun _ : String => LiveTrade := ∅

/-- A push repeats the terms of a recorded trade. -/
def LiveTrade.Agrees (existing push : LiveTrade) : Prop :=
  existing.assetId = push.assetId ∧ existing.side = push.side ∧
    existing.isMaker = push.isMaker ∧
    |existing.size - push.size| ≤ max (1 / 10 ^ 8) (|existing.size| * (1 / 10 ^ 8)) ∧
    |existing.price - push.price| ≤ max (1 / 10 ^ 10) (|existing.price| * (1 / 10 ^ 8))

instance (existing push : LiveTrade) : Decidable (existing.Agrees push) :=
  inferInstanceAs (Decidable (_ ∧ _))

/-- `update_trade`; the trade is given as the row that it gets. -/
def LivePositionManager.updateTrade (m : LivePositionManager) (push : LiveTrade) :
    LivePositionManager × Bool :=
  let written : LivePositionManager × Bool := (⟨m.trades.insert push.tradeId push⟩, true)
  if push.status = .retrying then (m, false)
  else if isBlank push.tradeId ∨ isBlank push.assetId ∨ push.size ≤ 0 ∨ push.price ≤ 0 ∨
      1 + 1 / 10 ^ 8 < push.price then (m, false)
  else match m.trades.lookup push.tradeId with
    | none => written
    | some existing =>
      if ¬existing.Agrees push then (m, false)
      -- A confirmation is final; a failure may still be retried and confirmed.
      else if existing.status.isTerminal ∧
          ¬(existing.status = .failed ∧ push.status = .confirmed) then (m, false)
      else if push.status.rank ≤ existing.status.rank then (m, false)
      else written

/-! ## The windows -/

/-- `FailedTradeDiagnosticDedupe`, used for terminal edges. -/
structure KeyWindow (α : Type*) where
  capacity : ℕ
  seen : List α := []
  order : List α := []

/-- Drop the oldest keys until the queue fits. -/
def KeyWindow.evict {α : Type*} [DecidableEq α] (capacity : ℕ) : List α → List α → KeyWindow α
  | [], seen => ⟨capacity, seen, []⟩
  | a :: order, seen =>
    if capacity < (a :: order).length then evict capacity order (seen.filter (· ≠ a))
    else ⟨capacity, seen, a :: order⟩

/-- `admit`. -/
def KeyWindow.accept {α : Type*} [DecidableEq α] (w : KeyWindow α) (a : α) : KeyWindow α :=
  if a ∈ w.seen then w else evict w.capacity (w.order ++ [a]) (a :: w.seen)

/-- `trade_lifecycle_identity`: the trade and the rank of its status in the window. -/
def tradeLifecycleIdentity (p : TradePayload) : Option (String × ℕ) :=
  if trimmed p.tradeId = "" then none
  else match p.status with
    | some .matched | some .matchedNotBroadcasted => some (trimmed p.tradeId, 1)
    | some .mined => some (trimmed p.tradeId, 2)
    | some .confirmed => some (trimmed p.tradeId, 3)
    | some .failed => some (trimmed p.tradeId, 4)
    | _ => none

/-- `terminal_trade_key`: the text `id|STATUS`, as a pair. -/
def terminalTradeKey (p : TradePayload) : Option (String × VenueStatus) :=
  match p.status with
  | some .confirmed | some .failed =>
    if trimmed p.tradeId = "" then none else some (trimmed p.tradeId, p.status.getD .other)
  | _ => none

def terminalGapReplayDedupeCapacity : ℕ := 32768

/-- The windows of `PrivateReplayOwner`. -/
structure PrivateReplayOwner where
  terminal : KeyWindow (String × VenueStatus) := { capacity := terminalGapReplayDedupeCapacity }
  lifecycle : RankWindow String := { capacity := terminalGapReplayDedupeCapacity }

namespace PrivateReplayOwner

variable (r : PrivateReplayOwner)

def lifecycleSeen (p : TradePayload) : Bool :=
  (tradeLifecycleIdentity p).any fun identity => r.lifecycle.seen identity.1 identity.2

/-- `terminal_seen` for the key of a payload, if it has one. -/
def terminalSeen (p : TradePayload) : Bool := (terminalTradeKey p).any (· ∈ r.terminal.seen)

def rememberLifecycle (p : TradePayload) : PrivateReplayOwner :=
  match tradeLifecycleIdentity p with
  | some (tradeId, rank) => { r with lifecycle := r.lifecycle.remember tradeId rank }
  | none => r

def rememberTerminal (key : String × VenueStatus) : PrivateReplayOwner :=
  { r with terminal := r.terminal.accept key }

end PrivateReplayOwner

/-! ## The cold batch -/

/-- What the account says about one leg. -/
inductive AccountAnswer
  /-- No owner is known. -/
  | unowned
  /-- The account has this edge already. -/
  | ownedNoop
  /-- The edge was applied, with the price of the durable row. -/
  | applied (price : ℚ)

/-- Answers of the shared account for one event. -/
structure ColdContext where
  /-- `trade_payload_requires_revalidation`. -/
  requiresRevalidation : TradePayload → Bool
  validateTradeEvent : TradePayload → Except String PrivateTradeRole
  /-- `parse_order_event`, whose updates go nowhere from here. -/
  parseOrderEvent : OrderPayload → Except String Unit
  /-- The account transition of one leg, by ledger key. -/
  applyTradeTransition : String → TradePayload → AccountAnswer
  /-- `trade_lifecycle_is_durably_covered`, after the event was applied. -/
  durablyCovered : TradePayload → Bool

/-- The state of the owner that the cold path reads and writes. -/
structure ColdOwner where
  live : LivePositionManager := {}
  replay : PrivateReplayOwner := {}

/-- The rows that a trade event writes, before prices are taken from the account. -/
def legRows (p : TradePayload) (status : LiveStatus) : PrivateTradeRole → List LiveTrade
  | .maker => (p.makerLegs.map fun leg =>
      ⟨makerLegKey p.tradeId leg.orderId, leg.assetId, leg.side, leg.matchedAmount, leg.price,
        status, true⟩).filter fun row => row.tradeId ≠ "" && 0 < row.size
  | .taker => [(⟨p.tradeId, p.assetId, p.side, p.size, p.price, status, false⟩ : LiveTrade)].filter
      fun row => row.tradeId ≠ "" && 0 < row.size

variable (ctx : ColdContext)

/-- Hand one leg to the account and, if it is new there, to the ledger. A taker row takes the price
of the durable row. -/
def applyLeg (p : TradePayload) (live : LivePositionManager) (row : LiveTrade) :
    LivePositionManager :=
  match ctx.applyTradeTransition row.tradeId p with
  | .unowned | .ownedNoop => live
  | .applied price =>
    let row := if row.isMaker then row else { row with price := price }
    -- `record_trade_transition` repeats the checks on the amounts.
    if row.tradeId = "" ∨ row.size ≤ 0 ∨ row.price ≤ 0 ∨ 1 + 1 / 10 ^ 8 < row.price then live
    else (live.updateTrade row).1

/-- `parse_user_event_validated`, its effect on the ledger. -/
def parseUserEventValidated (live : LivePositionManager) (p : TradePayload)
    (role : PrivateTradeRole) : LivePositionManager :=
  match (LiveStatus.fromVenue (p.status.getD .matched)).filter (· ≠ .retrying) with
  | none => live
  | some status => (legRows p status role).foldl (applyLeg ctx p) live

variable (o : ColdOwner)

/-- The check of `apply_private_cold_batch_owned` that an event was applied already. -/
def skips (e : PrivateEventDelta) : Bool :=
  match e.event with
  | .order _ => false
  | .trade p => !e.needsExecutionRepair && !ctx.requiresRevalidation p &&
      (o.replay.lifecycleSeen p || o.replay.terminalSeen p)

/-- What the cold path does with an event. -/
inductive ColdOutcome
  | skipped
  | applied
  | rejected (reason : String)
  deriving DecidableEq

/-- One event of `apply_private_cold_batch_owned`. -/
def coldStep (e : PrivateEventDelta) : ColdOwner × ColdOutcome :=
  if skips ctx o e then (o, .skipped)
  else match e.event with
    | .order p =>
      match ctx.parseOrderEvent p with
      | .error reason => (o, .rejected reason)
      | .ok _ => (o, .applied)
    | .trade p =>
      match ctx.validateTradeEvent p with
      | .error reason => (o, .rejected reason)
      | .ok role =>
        let live := parseUserEventValidated ctx o.live p role
        let replay := o.replay.rememberLifecycle p
        let replay := match (terminalTradeKey p).filter fun _ => ctx.durablyCovered p with
          | some key => replay.rememberTerminal key
          | none => replay
        (⟨live, replay⟩, .applied)

/-- `apply_private_cold_batch_owned`: a rejected event ends the batch. -/
def applyPrivateColdBatchOwned (o : ColdOwner) :
    List (ColdContext × PrivateEventDelta) → ℕ → ColdOwner × Except String ℕ
  | [], applied => (o, .ok applied)
  | (ctx, e) :: events, applied =>
    match coldStep ctx o e with
    | (o, .skipped) => applyPrivateColdBatchOwned o events applied
    | (o, .applied) => applyPrivateColdBatchOwned o events (applied + 1)
    | (o, .rejected reason) => (o, .error reason)

/-! ## Runs -/

/-- One event with its answers and its outcome. -/
structure ColdRecord where
  ctx : ColdContext
  delta : PrivateEventDelta
  outcome : ColdOutcome

/-- The step relation of `coldStep`. -/
def ColdStep (record : ColdRecord) (o' : ColdOwner) : Prop :=
  coldStep record.ctx o record.delta = (o', record.outcome)

/-- A batch is a run over its events up to the first rejected one. -/
theorem exists_trace_batch (events : List (ColdContext × PrivateEventDelta))
    (applied : ℕ) : ∃ records, Trace ColdStep o records
      (applyPrivateColdBatchOwned o events applied).1 ∧
      (records.map fun r => (r.ctx, r.delta)) <+: events := by
  induction events generalizing o applied with
  | nil => exact ⟨[], .nil o, prefix_rfl⟩
  | cons event events ih =>
    obtain ⟨ctx, e⟩ := event
    unfold applyPrivateColdBatchOwned
    cases hstep : coldStep ctx o e with
    | mk o' outcome =>
      have hfirst : ColdStep o ⟨ctx, e, outcome⟩ o' := hstep
      cases outcome with
      | skipped =>
        obtain ⟨records, htrace, hprefix⟩ := ih o' applied
        exact ⟨_ :: records, .cons hfirst htrace, (prefix_cons_inj _).2 hprefix⟩
      | applied =>
        obtain ⟨records, htrace, hprefix⟩ := ih o' (applied + 1)
        exact ⟨_ :: records, .cons hfirst htrace, (prefix_cons_inj _).2 hprefix⟩
      | rejected reason =>
        exact ⟨[_], .cons hfirst (.nil o'), (prefix_cons_inj _).2 nil_prefix⟩

/-- A trade event was applied in a run. -/
def AppliedIn (records : List ColdRecord) (p : TradePayload) : Prop :=
  ∃ r ∈ records, r.outcome = .applied ∧ r.delta.event = .trade p

lemma AppliedIn.append {records : List ColdRecord} (h : AppliedIn records p)
    (more : List ColdRecord) : AppliedIn (records ++ more) p := by
  obtain ⟨r, hr, happl⟩ := h
  exact ⟨r, mem_append_left _ hr, happl⟩

/-- What one event does to the windows: nothing, or it was applied and its keys may be new. -/
lemma coldStep_cases {ctx : ColdContext} {o o' : ColdOwner} {e : PrivateEventDelta}
    {outcome : ColdOutcome} (h : coldStep ctx o e = (o', outcome)) :
    o'.replay = o.replay ∨ ∃ p, outcome = .applied ∧ e.event = .trade p ∧
      o'.replay.lifecycle = (o.replay.rememberLifecycle p).lifecycle ∧
      (o'.replay.terminal = o.replay.terminal ∨ ∃ key, terminalTradeKey p = some key ∧
        o'.replay.terminal = o.replay.terminal.accept key) := by
  have hterm p :
      (o.replay.rememberLifecycle p).terminal = o.replay.terminal := by
    unfold PrivateReplayOwner.rememberLifecycle
    split <;> rfl
  unfold coldStep at h
  split at h
  · cases h
    exact .inl rfl
  split at h
  · split at h
    · cases h
      exact .inl rfl
    · cases h
      exact .inl rfl
  next p hev =>
  split at h
  · cases h
    exact .inl rfl
  dsimp only at h
  cases h
  refine .inr ⟨p, rfl, hev, ?_⟩
  cases hkey : (terminalTradeKey p).filter fun _ => ctx.durablyCovered p with
  | none => exact ⟨rfl, .inl (hterm p)⟩
  | some key =>
    obtain ⟨hterminalKey, -⟩ := filter_eq_some_iff.1 hkey
    dsimp only [PrivateReplayOwner.rememberTerminal]
    rw [hterm]
    exact ⟨rfl, .inr ⟨key, hterminalKey, rfl⟩⟩

lemma KeyWindow.mem_evict {α : Type*} [DecidableEq α] {capacity : ℕ} {order seen : List α} {a : α}
    (h : a ∈ (KeyWindow.evict capacity order seen).seen) : a ∈ seen := by
  induction order generalizing seen with
  | nil => exact h
  | cons b order ih =>
    unfold KeyWindow.evict at h
    split at h
    · exact (mem_filter.1 (ih h)).1
    · exact h

lemma KeyWindow.mem_accept {α : Type*} [DecidableEq α] {w : KeyWindow α} {a b : α}
    (h : a ∈ (w.accept b).seen) : a = b ∨ a ∈ w.seen := by
  unfold KeyWindow.accept at h
  split at h
  · exact .inr h
  · exact mem_cons.1 (KeyWindow.mem_evict h)

/-! ## Dropped advances -/

/-- Rank of an event in the ledger; a status without a row ranks lowest. -/
def TradePayload.ledgerRank (p : TradePayload) : ℕ :=
  ((p.status.bind LiveStatus.fromVenue).map LiveStatus.rank).getD 0

/-- The event ranks above every status that a run applied to its trade. -/
def Advances (records : List ColdRecord) (p : TradePayload) : Prop :=
  ∀ a, AppliedIn records a → trimmed a.tradeId = trimmed p.tradeId → a.ledgerRank < p.ledgerRank

/-- The two rankings agree, except that they order confirmations and failures differently. -/
lemma tradeLifecycleIdentity_spec {tid : String} {rank : ℕ}
    (h : tradeLifecycleIdentity p = some (tid, rank)) :
    trimmed p.tradeId = tid ∧ trimmed p.tradeId ≠ "" ∧
      (rank = p.ledgerRank ∧ rank ≤ 2 ∨ p.status = some .confirmed ∧ rank = 3 ∧ p.ledgerRank = 4 ∨
        p.status = some .failed ∧ rank = 4 ∧ p.ledgerRank = 3) := by
  unfold tradeLifecycleIdentity at h
  split at h
  · cases h
  next hid =>
  unfold ledgerRank
  split at h
  all_goals
    first
    | cases h
      next hst =>
        rw [hst]
        exact ⟨rfl, hid, by simp [fromVenue, rank]⟩
    | cases h

lemma terminalTradeKey_spec (h : terminalTradeKey p = some key) :
    key.1 = trimmed p.tradeId ∧ p.status = some key.2 := by
  unfold terminalTradeKey at h
  split at h
  all_goals
    first
    | next hst =>
        split at h
        · cases h
        · cases h
          exact ⟨rfl, by rw [hst]; rfl⟩
    | cases h

section History

variable {o} {live : LivePositionManager} {records : List ColdRecord}
  (hrun : Trace ColdStep ⟨live, {}⟩ records o)

include hrun

/-- A rank in the window belongs to an event that was applied. -/
lemma lifecycle_applied {tid : String} {rank : ℕ}
    (h : o.replay.lifecycle.ranks.lookup tid = some rank) :
    ∃ p, AppliedIn records p ∧ tradeLifecycleIdentity p = some (tid, rank) := by
  revert tid rank
  refine hrun.invariant_history (P := fun records o => ∀ {tid : String} {rank : ℕ},
    o.replay.lifecycle.ranks.lookup tid = some rank →
      ∃ p, AppliedIn records p ∧ tradeLifecycleIdentity p = some (tid, rank)) ?_ ?_
  · intro before o record o' hpre hstep tid rank hrank
    rcases coldStep_cases hstep with hsame | ⟨p, houtc, hev, hlif, -⟩
    · rw [hsame] at hrank
      obtain ⟨p, hp, hidentity⟩ := hpre hrank
      exact ⟨p, hp.append _, hidentity⟩
    · rw [hlif] at hrank
      cases hidentity : tradeLifecycleIdentity p with
      | none =>
        rw [PrivateReplayOwner.rememberLifecycle, hidentity] at hrank
        obtain ⟨p, hp, hidentity⟩ := hpre hrank
        exact ⟨p, hp.append _, hidentity⟩
      | some ident =>
        rw [PrivateReplayOwner.rememberLifecycle, hidentity] at hrank
        -- The entry is the one stored now, or it was there before.
        have hget := lookup_remember_of_isSome (isSome_of_eq_some hrank)
        rw [hrank] at hget
        split at hget
        · next hnew =>
          refine ⟨p, ⟨record, mem_append_right _ (.head _), houtc, hev⟩, ?_⟩
          rw [hidentity, hnew.1, some.inj hget]
        · obtain ⟨p, hp, hidentity⟩ := hpre hget.symm
          exact ⟨p, hp.append _, hidentity⟩
  · intro tid rank hrank
    cases hrank

/-- A terminal edge in the window was applied. -/
lemma terminal_applied (h : key ∈ o.replay.terminal.seen) :
    ∃ p, AppliedIn records p ∧ terminalTradeKey p = some key := by
  revert key
  refine hrun.invariant_history (P := fun records o => ∀ {key : String × VenueStatus},
    key ∈ o.replay.terminal.seen →
      ∃ p, AppliedIn records p ∧ terminalTradeKey p = some key) ?_ ?_
  · intro before o record o' hpre hstep key hkey
    have hold (hkey : key ∈ o.replay.terminal.seen) :
        ∃ p, AppliedIn (before ++ [record]) p ∧ terminalTradeKey p = some key := by
      obtain ⟨p, hp, hterm⟩ := hpre hkey
      exact ⟨p, hp.append _, hterm⟩
    rcases coldStep_cases hstep with hsame | ⟨p, houtc, hev, -, hterm⟩
    · rw [hsame] at hkey
      exact hold hkey
    rcases hterm with hsame | ⟨new, hnew, hacc⟩
    · rw [hsame] at hkey
      exact hold hkey
    · rw [hacc] at hkey
      rcases KeyWindow.mem_accept hkey with rfl | hkey
      · exact ⟨p, ⟨record, mem_append_right _ (.head _), houtc, hev⟩, hnew⟩
      · exact hold hkey
  · intro key hkey
    cases hkey

/-- An event that advances its trade is dropped exactly if it is a confirmation, no confirmation was
applied before, and the window remembers a failure of the trade; events that need repair or
revalidation are never dropped. -/
theorem dropped_advance_iff (ctx : ColdContext) {e : PrivateEventDelta} {p : TradePayload}
    (he : e.event = .trade p) :
    skips ctx o e = true ∧ Advances records p ↔
      (e.needsExecutionRepair = false ∧ ctx.requiresRevalidation p = false) ∧
        p.status = some .confirmed ∧
        o.replay.lifecycle.ranks.lookup (trimmed p.tradeId) = some 4 ∧
        ∀ a, AppliedIn records a → trimmed a.tradeId = trimmed p.tradeId →
          a.status ≠ some .confirmed := by
  have hskips : skips ctx o e = (!e.needsExecutionRepair && !ctx.requiresRevalidation p &&
      (o.replay.lifecycleSeen p || o.replay.terminalSeen p)) := by
    unfold skips
    rw [he]
  have hconf (a : TradePayload) (ha : a.status = some .confirmed) : a.ledgerRank = 4 := by
    rw [ledgerRank, ha]
    rfl
  rw [hskips]
  simp only [Bool.and_eq_true, Bool.or_eq_true, Bool.not_eq_true']
  constructor
  · rintro ⟨⟨hplain, hseen⟩, hadv⟩
    refine ⟨hplain, ?_⟩
    rcases hseen with hseen | hseen
    · -- The window holds the rank of an applied event that the ledger ranks lower.
      obtain ⟨⟨tradeId, rank⟩, hidentity, hrank⟩ := (any_eq_true _ _).1 hseen
      obtain ⟨stored, hstored, hle⟩ := seen_eq_true_iff.1 hrank
      obtain ⟨a, happl, haidentity⟩ := lifecycle_applied hrun hstored
      obtain ⟨hid, -, hcases⟩ := tradeLifecycleIdentity_spec hidentity
      obtain ⟨haid, -, hacases⟩ := tradeLifecycleIdentity_spec haidentity
      have hlt := hadv a happl (haid.trans hid.symm)
      have hboth : p.status = some .confirmed ∧ stored = 4 := by
        rcases hcases with ⟨hr, hr'⟩ | ⟨hst, hr, hr'⟩ | ⟨hst, hr, hr'⟩ <;>
          rcases hacases with ⟨ha, ha'⟩ | ⟨-, ha, ha'⟩ | ⟨-, ha, ha'⟩ <;>
          first
          | omega
          | exact ⟨hst, ha⟩
      refine ⟨hboth.1, ?_, fun a ha haid hst => ?_⟩
      · rw [hid, ← hboth.2]
        exact hstored
      · have hlt := hadv a ha haid
        rw [hconf a hst, hconf p hboth.1] at hlt
        exact absurd hlt (lt_irrefl 4)
    · -- The same edge of the trade was applied.
      exfalso
      obtain ⟨key, hkey, hmem⟩ := (any_eq_true _ _).1 hseen
      obtain ⟨a, happl, hakey⟩ := terminal_applied hrun (by simpa using hmem)
      obtain ⟨hid, hst⟩ := terminalTradeKey_spec hkey
      obtain ⟨haid, hast⟩ := terminalTradeKey_spec hakey
      have hlt := hadv a happl (haid.symm.trans hid)
      rw [ledgerRank, ledgerRank, hst, hast] at hlt
      exact absurd hlt (lt_irrefl _)
  · rintro ⟨hplain, hst, hstored, hnone⟩
    obtain ⟨a, happl, haidentity⟩ := lifecycle_applied hrun hstored
    obtain ⟨haid, hnon, -⟩ := tradeLifecycleIdentity_spec haidentity
    have hidentity : tradeLifecycleIdentity p = some (trimmed p.tradeId, 3) := by
      unfold tradeLifecycleIdentity
      rw [if_neg (haid ▸ hnon), hst]
    refine ⟨⟨hplain, .inl ?_⟩, fun a ha haid => ?_⟩
    · unfold PrivateReplayOwner.lifecycleSeen
      rw [hidentity]
      exact seen_eq_true_iff.2 ⟨4, hstored, by omega⟩
    · have hne := hnone a ha haid
      rw [hconf p hst, ledgerRank]
      cases hast : a.status with
      | none => simp
      | some status =>
        cases status <;> simp_all [fromVenue, rank]

end History

/-- A settlement that failed and was then retried successfully. -/
def retriedTrade (status : VenueStatus) : TradePayload where
  tradeId := "t1"
  status := some status
  takerOrderId := some "0xa1"
  assetId := "UP"
  side := .buy
  size := 2
  price := 1 / 2
  makerLegs := []

/-- An account that owns every trade as taker and has applied none of them. -/
def owningContext : ColdContext where
  requiresRevalidation _ := false
  validateTradeEvent _ := .ok .taker
  parseOrderEvent _ := .ok ()
  applyTradeTransition _ p := .applied p.price
  durablyCovered _ := true

/-- The owner after it applied the failure. -/
def afterFailure : ColdOwner :=
  (coldStep owningContext {} { event := .trade (retriedTrade .failed) }).1

lemma trace_afterFailure : Trace ColdStep {}
    [⟨owningContext, { event := .trade (retriedTrade .failed) }, .applied⟩] afterFailure := by
  have happl : (coldStep owningContext {} { event := .trade (retriedTrade .failed) }).2 =
      .applied := by decide +kernel
  have hstep : ColdStep {} ⟨owningContext, { event := .trade (retriedTrade .failed) }, .applied⟩
      afterFailure := Prod.ext_iff.2 ⟨rfl, happl⟩
  exact .cons hstep (.nil _)

theorem dropped_advance_iff_retried :
    afterFailure.replay.lifecycle.ranks.lookup "t1" = some 4 ∧
      skips owningContext afterFailure { event := .trade (retriedTrade .confirmed) } = true ∧
      Advances [⟨owningContext, { event := .trade (retriedTrade .failed) }, .applied⟩]
        (retriedTrade .confirmed) := by
  have hstored : afterFailure.replay.lifecycle.ranks.lookup "t1" = some 4 := by decide +kernel
  refine ⟨hstored, (dropped_advance_iff trace_afterFailure owningContext rfl).2
    ⟨⟨rfl, rfl⟩, rfl, hstored, ?_⟩⟩
  rintro a ⟨r, hr, -, hev⟩ -
  cases mem_singleton.1 hr
  cases hev
  decide

/-- The confirmation of a failed trade is dropped as already applied. The only status applied to the
trade is the failure, which the ledger ranks lower, and the ledger would accept the confirmation. -/
theorem confirmation_after_failure_dropped :
    Trace ColdStep {} [⟨owningContext, { event := .trade (retriedTrade .failed) }, .applied⟩]
        afterFailure ∧
      skips owningContext afterFailure { event := .trade (retriedTrade .confirmed) } = true ∧
      (retriedTrade .failed).ledgerRank < (retriedTrade .confirmed).ledgerRank ∧
      (afterFailure.live.updateTrade
        ⟨"t1", "UP", .buy, 2, 1 / 2, .confirmed, false⟩).2 = true := by
  refine ⟨trace_afterFailure, ?_, ?_, ?_⟩ <;> decide +kernel

end HexAgent.Exchange
