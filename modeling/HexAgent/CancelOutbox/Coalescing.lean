import HexAgent.CancelOutbox.Dispatcher
import HexAgent.ToMathlib.CountSlots

/-!
# No accepted cancel is lost

A lane is free only when its owner has sent the reply and waits for a command (`LaneOk`), and the
key of a lane is the one of its last command. So a set flag means that this command is unanswered
(`LanesOk`), and what is dropped in favour of it will still be answered. The keys of the outbox are
those of its commands, and accepted commands reach the lanes in order (`OutboxOk`).
-/

namespace HexAgent.CancelOutbox

open PolyAccountConnectionRoutes List Option OutboxEvent

variable {log : List OutboxEvent}

/-! ## Lanes -/

namespace PolyConnectionLane

/-- Commands on the lane. -/
def load (lane : PolyConnectionLane) : ℕ :=
  lane.queue.length + if lane.owner = .idle then 0 else 1

structure LaneOk (lane : PolyConnectionLane) : Prop where
  load : lane.load ≤ 1
  free : lane.occupied = false → lane.load = 0 ∧ lane.cancelReplyPending = false
  /-- An answer clears the flag. -/
  pending : lane.cancelReplyPending = true → lane.owner = .idle ∨ ∃ c, lane.owner = .working c

variable {lane : PolyConnectionLane}

@[simp] lemma load_eq :
    lane.load = lane.queue.length + if lane.owner = .idle then 0 else 1 := rfl

variable (h : lane.LaneOk)
include h

lemma LaneOk.released (hown : lane.owner ≠ .idle) : lane.release.LaneOk := by
  have hload := h.load
  simp only [load_eq, if_neg hown] at hload
  have hqueue : lane.queue.length = 0 := by omega
  refine ⟨?_, fun _ => ⟨?_, rfl⟩, fun hpend => ?_⟩
  · simp [release, hqueue]
  · simp [release, hqueue]
  · cases hpend

/-- What an action of the owner does to a lane. -/
lemma LaneOk.acted (action : OwnerAction) : (lane.act action).1.LaneOk ∧
      ((lane.act action).1.cancelReplyPending = true →
        lane.cancelReplyPending = true ∧ (lane.act action).2 = none) := by
  have hload := h.load
  cases action with
  | receive =>
    simp only [act]
    split
    · next c queue halive hown hqueue =>
      simp only [load_eq, hown, hqueue, length_cons] at hload
      have hrest : queue = [] := by simpa using hload
      refine ⟨⟨?_, fun hfree => ?_, fun _ => .inr ⟨c, rfl⟩⟩, fun hpend => ⟨hpend, rfl⟩⟩
      · simp [hrest]
      · -- a lane with a queued command is occupied
        have := (h.free hfree).1
        simp [hqueue] at this
    · exact ⟨h, fun hpend => ⟨hpend, rfl⟩⟩
  | answer =>
    simp only [act]
    split
    · next c hown =>
      simp only [load_eq, hown] at hload
      split
      · refine ⟨⟨?_, fun hfree => ?_, fun hpend => ?_⟩, fun hpend => ?_⟩
        · simpa using hload
        · have := (h.free hfree).1
          simp [hown] at this
        · cases hpend
        · cases hpend
      · exact ⟨h, fun hpend => ⟨hpend, rfl⟩⟩
    · exact ⟨h, fun hpend => ⟨hpend, rfl⟩⟩
  | reply =>
    simp only [act]
    split
    · next c hown =>
      have hclear : lane.cancelReplyPending ≠ true := by
        intro hpend
        rcases h.pending hpend with hidle | ⟨c', hwork⟩
        · rw [hown] at hidle
          cases hidle
        · rw [hown] at hwork
          cases hwork
      simp only [load_eq, hown] at hload
      refine ⟨⟨?_, fun hfree => ?_, fun hpend => ?_⟩, fun hpend => ?_⟩
      · simpa using hload
      · have := (h.free hfree).1
        simp [hown] at this
      · exact absurd hpend hclear
      · exact absurd hpend hclear
    · exact ⟨h, fun hpend => ⟨hpend, rfl⟩⟩
  | release =>
    simp only [act]
    split
    · next hown =>
      exact ⟨h.released (by simp [hown]), nofun⟩
    · next c hown =>
      split
      · exact ⟨h, fun hpend => ⟨hpend, rfl⟩⟩
      · exact ⟨h.released (by simp [hown]), nofun⟩
    · exact ⟨h, fun hpend => ⟨hpend, rfl⟩⟩
  | close => exact ⟨{ h with  }, fun hpend => ⟨hpend, rfl⟩⟩

/-- An attempt to send on a lane. A failed one leaves the flag cleared, as it found it. -/
lemma LaneOk.tried (command : PolyConnectionCommand) : (lane.trySendSlot command).2.LaneOk ∧
      ((lane.trySendSlot command).1 = false →
        (lane.trySendSlot command).2.cancelReplyPending = lane.cancelReplyPending) ∧
      ((lane.trySendSlot command).1 = true →
        (lane.trySendSlot command).2.cancelReplyPending = command.isCancel) := by
  unfold trySendSlot
  split
  · exact ⟨h, fun _ => rfl, nofun⟩
  next hfree =>
  obtain ⟨hload, hclear⟩ := h.free (Bool.not_eq_true _ ▸ hfree)
  obtain ⟨hqueue, hown⟩ : lane.queue = [] ∧ lane.owner = .idle := by
    obtain ⟨hqueue, hown⟩ := Nat.add_eq_zero_iff.1 hload
    refine ⟨length_eq_zero_iff.1 hqueue, ?_⟩
    by_contra hne
    simp [hne] at hown
  dsimp only
  split
  · refine ⟨⟨?_, fun hfree => ?_, fun _ => .inl hown⟩, fun hsent => ?_, fun _ => rfl⟩
    · simp [hqueue, hown]
    · cases hfree
    · cases hsent
  · refine ⟨⟨?_, fun _ => ⟨?_, rfl⟩, fun hpend => ?_⟩, fun _ => hclear.symm, fun hsent => ?_⟩
    · simp [hqueue, hown]
    · simp [hqueue, hown]
    · cases hpend
    · cases hsent

end PolyConnectionLane

/-! ## Flags and keys -/

/-- A command with the key was handed to the lane, and since then the owner of the lane has neither
built nor sent a reply. -/
def Unanswered (log : List OutboxEvent) (index : ℕ) (key : CancelKey) : Prop :=
  ∃ before command after, log = before ++ .handed index command :: after ∧
    command.cancelKey = some key ∧ ∀ c, .reply index c ∉ after

lemma Unanswered.append {new : List OutboxEvent} {index : ℕ} {key : CancelKey}
    (h : Unanswered log index key) (hnew : ∀ c, .reply index c ∉ new) :
    Unanswered (log ++ new) index key := by
  obtain ⟨before, command, after, rfl, hkey, hpost⟩ := h
  refine ⟨before, command, after ++ new, by simp, hkey, fun c hmem => ?_⟩
  rcases mem_append.1 hmem with hmem | hmem
  · exact hpost c hmem
  · exact hnew c hmem

structure LanesOk (r : PolyAccountConnectionRoutes) : Prop where
  lanes : ∀ (index : ℕ) (lane : PolyConnectionLane), r.cancel[index]? = some lane → lane.LaneOk
  /-- A set flag means that the command of the lane's key is unanswered. -/
  marked : ∀ (index : ℕ) (lane : PolyConnectionLane) (key : CancelKey),
    r.cancel[index]? = some lane → lane.cancelReplyPending = true →
    r.cancelLaneKeys[index]? = some (some key) → Unanswered r.log index key

/-- The dispatcher's own fields are the same, and only replies were logged. -/
structure SameOutbox (r r' : PolyAccountConnectionRoutes) : Prop where
  outbox : r'.cancelOutbox = r.cancelOutbox
  keys : r'.cancelOutboxKeys = r.cancelOutboxKeys
  laneKeys : r'.cancelLaneKeys = r.cancelLaneKeys
  lanes : r'.cancel.length = r.cancel.length
  log : ∃ replies, r'.log = r.log ++ replies ∧ ∀ e ∈ replies, ∃ index c, e = .reply index c

variable {r r' r'' : PolyAccountConnectionRoutes}

lemma SameOutbox.refl (r : PolyAccountConnectionRoutes) : SameOutbox r r :=
  ⟨rfl, rfl, rfl, rfl, [], by simp, by simp⟩

lemma SameOutbox.trans (h : SameOutbox r r') (h' : SameOutbox r' r'') : SameOutbox r r'' := by
  obtain ⟨new, hlog, hnew⟩ := h.log
  obtain ⟨new', hlog', hnew'⟩ := h'.log
  refine ⟨h'.outbox.trans h.outbox, h'.keys.trans h.keys, h'.laneKeys.trans h.laneKeys,
    h'.lanes.trans h.lanes, new ++ new', by rw [hlog', hlog, append_assoc], fun e he => ?_⟩
  rcases mem_append.1 he with he | he
  · exact hnew e he
  · exact hnew' e he

lemma sameOutbox_act {action : ℕ × OwnerAction} : SameOutbox r (r.act action) := by
  unfold act
  split
  · exact .refl r
  next lane hlane =>
  refine ⟨rfl, rfl, rfl, by simp, _, rfl, fun e he => ?_⟩
  obtain ⟨c, -, rfl⟩ := map_eq_some_iff.1 (mem_toList.1 he)
  exact ⟨_, c, rfl⟩

lemma LanesOk.acted (h : LanesOk r) (action : ℕ × OwnerAction) : LanesOk (r.act action) := by
  obtain ⟨index, action⟩ := action
  unfold act
  split
  · exact h
  next lane hlane =>
  obtain ⟨hok, hflag⟩ := (h.lanes index lane hlane).acted action
  generalize lane.act action = out at hok hflag
  obtain ⟨lane', reply⟩ := out
  constructor
  case lanes =>
    intro i other hother
    rcases eq_or_getElem?_of_set hother with ⟨-, rfl⟩ | ⟨-, hother⟩
    · exact hok
    · exact h.lanes i other hother
  case marked =>
    intro i other key hother hpend hkey
    rcases eq_or_getElem?_of_set hother with ⟨rfl, rfl⟩ | ⟨hne, hother⟩
    · -- a lane with a set flag has not replied
      obtain ⟨hpend, rfl⟩ := hflag hpend
      simpa using h.marked i lane key hlane hpend hkey
    · refine (h.marked i other key hother hpend hkey).append fun c hmem => ?_
      obtain ⟨c', -, heq⟩ := map_eq_some_iff.1 (mem_toList.1 hmem)
      cases heq
      exact hne rfl

lemma LanesOk.awaited (h : LanesOk r) : LanesOk r.await :=
  foldlRecOn _ _ { h with  } fun _ hs action _ => hs.acted action

lemma sameOutbox_await (r : PolyAccountConnectionRoutes) : SameOutbox r r.await :=
  foldlRecOn (motive := SameOutbox r) _ _ ⟨rfl, rfl, rfl, rfl, [], by simp, by simp⟩
    fun _ hs _ _ => hs.trans sameOutbox_act

/-! ## Sending -/

/-- What an attempt to send on one lane does, before the dispatcher notes it. -/
structure Offered (r r' : PolyAccountConnectionRoutes) (index : ℕ) (command : PolyConnectionCommand)
    (sent : Bool) : Prop where
  same : SameOutbox r r'
  lanes : ∀ (i : ℕ) (lane : PolyConnectionLane), r'.cancel[i]? = some lane → lane.LaneOk
  /-- Only the lane that took the command may have a new flag. -/
  marked : ∀ (i : ℕ) (lane : PolyConnectionLane) (key : CancelKey),
    r'.cancel[i]? = some lane → lane.cancelReplyPending = true →
    (sent = true → i ≠ index) → r'.cancelLaneKeys[i]? = some (some key) → Unanswered r'.log i key
  flag : sent = true → ∀ lane : PolyConnectionLane, r'.cancel[index]? = some lane →
    lane.cancelReplyPending = command.isCancel

lemma offered_trySendSlot (h : LanesOk r) (index : ℕ) (command : PolyConnectionCommand) :
    Offered r (r.trySendSlot index command).2 index command (r.trySendSlot index command).1 := by
  have hawait := h.awaited
  have hsame := sameOutbox_await r
  unfold trySendSlot
  dsimp only
  split
  · exact ⟨hsame, hawait.lanes, fun i lane key hlane hp _ => hawait.marked i lane key hlane hp,
      nofun⟩
  next lane hlane =>
  obtain ⟨hok, hfail, hsent⟩ := (hawait.lanes index lane hlane).tried command
  generalize lane.trySendSlot command = out at hok hfail hsent
  obtain ⟨sent, lane'⟩ := out
  refine ⟨hsame.trans ⟨rfl, rfl, rfl, by simp, [], by simp, by simp⟩, ?_, ?_, ?_⟩
  · intro i other hother
    rcases eq_or_getElem?_of_set hother with ⟨-, rfl⟩ | ⟨-, hother⟩
    · exact hok
    · exact hawait.lanes i other hother
  · intro i other key hother hpend hne hkey
    rcases eq_or_getElem?_of_set hother with ⟨rfl, rfl⟩ | ⟨-, hother⟩
    · cases sent with
      | true => exact absurd rfl (hne rfl)
      | false => exact hawait.marked i lane key hlane (hfail rfl ▸ hpend) hkey
    · exact hawait.marked i other key hother hpend hkey
  · intro htrue other hother
    rcases eq_or_getElem?_of_set hother with ⟨-, rfl⟩ | ⟨hne, -⟩
    · exact hsent htrue
    · exact absurd rfl hne

/-- The transport refreshes are not cancels, so they set no flag. -/
lemma LanesOk.refreshed (h : LanesOk r) {resets : List ℕ} :
    LanesOk (r.refreshHealth resets) ∧ SameOutbox r (r.refreshHealth resets) := by
  refine foldlRecOn (motive := fun t => LanesOk t ∧ SameOutbox r t) resets _ ⟨h, .refl r⟩
    fun t ⟨ht, hsame⟩ index _ => ?_
  have hawait := ht.awaited
  have hsame := hsame.trans (sameOutbox_await t)
  dsimp only
  split
  · have hoffer := offered_trySendSlot hawait index .refreshTransport
    generalize t.await.trySendSlot index .refreshTransport = out at hoffer ⊢
    refine ⟨⟨hoffer.lanes, fun i lane key hlane hpend hkey => ?_⟩, hsame.trans hoffer.same⟩
    refine hoffer.marked i lane key hlane hpend (fun hsent heq => ?_) hkey
    rw [hoffer.flag hsent lane (heq ▸ hlane)] at hpend
    cases hpend
  · exact ⟨hawait, hsame⟩

/-! ## Commands in the log -/

def OutboxEvent.acceptedCommand : OutboxEvent → Option PolyConnectionCommand
  | .accepted command => some command
  | _ => none

def OutboxEvent.handedCommand : OutboxEvent → Option PolyConnectionCommand
  | .handed _ command => some command
  | _ => none

/-- Accepted commands, in order. -/
def acceptedOf (log : List OutboxEvent) : List PolyConnectionCommand :=
  log.filterMap OutboxEvent.acceptedCommand

/-- Commands that the dispatcher has handed to a lane, in order. -/
def handedOf (log : List OutboxEvent) : List PolyConnectionCommand :=
  log.filterMap OutboxEvent.handedCommand

/-- Accepted commands that were not handed over yet, if they are handed over in order. -/
def queuedOf (log : List OutboxEvent) : List PolyConnectionCommand :=
  (acceptedOf log).drop (handedOf log).length

@[simp] lemma acceptedOf_append (log log' : List OutboxEvent) :
    acceptedOf (log ++ log') = acceptedOf log ++ acceptedOf log' := filterMap_append

@[simp] lemma handedOf_append (log log' : List OutboxEvent) :
    handedOf (log ++ log') = handedOf log ++ handedOf log' := filterMap_append

/-- What an attempt to send a command does to the outbox and the log. -/
structure Sent (r r' : PolyAccountConnectionRoutes) (command : PolyConnectionCommand)
    (sent : Bool) : Prop where
  outbox : r'.cancelOutbox = r.cancelOutbox
  keys : r'.cancelOutboxKeys = r.cancelOutboxKeys
  log : ∃ new, r'.log = r.log ++ new ∧ acceptedOf new = [] ∧
    handedOf new = (if sent then [command] else []) ∧ ∀ c, .coalesced c ∉ new

lemma SameOutbox.sent (h : SameOutbox r r') (command : PolyConnectionCommand) :
    Sent r r' command false := by
  obtain ⟨replies, hlog, hrepl⟩ := h.log
  refine ⟨h.outbox, h.keys, replies, hlog, filterMap_eq_nil_iff.2 fun e he => ?_,
    filterMap_eq_nil_iff.2 fun e he => ?_, fun c hmem => ?_⟩
  · obtain ⟨_, _, rfl⟩ := hrepl e he
    rfl
  · obtain ⟨_, _, rfl⟩ := hrepl e he
    rfl
  · obtain ⟨_, _, heq⟩ := hrepl _ hmem
    cases heq

variable {command : PolyConnectionCommand}

lemma SameOutbox.trans_sent {sent : Bool}
    (h : SameOutbox r r') (h' : Sent r' r'' command sent) : Sent r r'' command sent := by
  obtain ⟨replies, hlog, hacc, hhand, hcoal⟩ := (h.sent command).log
  obtain ⟨new, hlog', hacc', hhand', hcoal'⟩ := h'.log
  refine ⟨h'.outbox.trans h.outbox, h'.keys.trans h.keys, replies ++ new, ?_, ?_, ?_, fun c hmem =>
    ?_⟩
  · rw [hlog', hlog, append_assoc]
  · rw [acceptedOf_append, hacc, hacc', append_nil]
  · rw [handedOf_append, hhand, hhand']
    rfl
  · exact (mem_append.1 hmem).elim (hcoal c) (hcoal' c)

lemma LanesOk.tried (command : PolyConnectionCommand) :
    ∀ (indices : List ℕ) {r : PolyAccountConnectionRoutes}, LanesOk r →
      LanesOk (tryLanes command indices r).2 ∧
        Sent r (tryLanes command indices r).2 command (tryLanes command indices r).1
  | [], r, h => ⟨h, (SameOutbox.refl r).sent command⟩
  | index :: rest, r, h => by
    have hoffer := offered_trySendSlot h index command
    unfold tryLanes
    generalize r.trySendSlot index command = out at hoffer
    obtain ⟨sent, s⟩ := out
    cases sent with
    | true =>
      constructor
      · refine ⟨hoffer.lanes, fun i lane key hlane hpend hkey => ?_⟩
        rcases eq_or_getElem?_of_set hkey with ⟨rfl, hsame⟩ | ⟨hne, hold⟩
        · -- the command itself is unanswered
          exact ⟨s.log, command, [], rfl, hsame.symm, by simp⟩
        · exact (hoffer.marked i lane key hlane hpend (fun _ => hne) hold).append (by simp)
      · refine hoffer.same.trans_sent ⟨rfl, rfl, [.handed index command], rfl, rfl, rfl, ?_⟩
        simp
    | false =>
      have hnext : LanesOk s := ⟨hoffer.lanes, fun i lane key hlane hpend hkey =>
        hoffer.marked i lane key hlane hpend nofun hkey⟩
      obtain ⟨hok, hrest⟩ := LanesOk.tried command rest hnext
      exact ⟨hok, hoffer.same.trans_sent hrest⟩

lemma LanesOk.trySendPolyOwner (h : LanesOk r) (command : PolyConnectionCommand) :
    LanesOk (r.trySendPolyOwner command).2 ∧
      Sent r (r.trySendPolyOwner command).2 command (r.trySendPolyOwner command).1 := by
  have hturn : LanesOk { r with turns := r.turns.tail } := { h with  }
  have hsame : SameOutbox r { r with turns := r.turns.tail } :=
    ⟨rfl, rfl, rfl, rfl, [], by simp, by simp⟩
  obtain ⟨hok, hrefr⟩ := hturn.refreshed
  obtain ⟨hok', hsent⟩ := LanesOk.tried command _ hok
  exact ⟨hok', (hsame.trans hrefr).trans_sent hsent⟩

/-! ## The outbox -/

/-- The keys are those of the queued commands, and the accepted commands are those that were handed
over and then the queued ones. -/
structure OutboxOk (r : PolyAccountConnectionRoutes) (queue : List PolyConnectionCommand) :
    Prop where
  keys : ∀ key, key ∈ r.cancelOutboxKeys ↔ ∃ c ∈ queue, c.cancelKey = some key
  nodup : (queue.filterMap PolyConnectionCommand.cancelKey).Nodup
  order : acceptedOf r.log = handedOf r.log ++ queue

/-- A dropped cancel repeats one that was queued or unanswered at the time. -/
def Justified (log : List OutboxEvent) : Prop :=
  ∀ before command after, log = before ++ .coalesced command :: after →
    ∃ key, command.cancelKey = some key ∧
      ((∃ c ∈ queuedOf before, c.cancelKey = some key) ∨ ∃ index, Unanswered before index key)

lemma Justified.append {new : List OutboxEvent} (h : Justified log)
    (hnew : ∀ c, .coalesced c ∉ new) : Justified (log ++ new) := by
  intro before command after heq
  rcases append_eq_append_iff.1 heq with ⟨middle, rfl, hnew'⟩ | ⟨middle, hlog, hrest⟩
  · exact absurd (hnew' ▸ mem_append_right _ (.head _)) (hnew command)
  cases middle with
  | nil =>
    rw [nil_append] at hrest
    exact absurd (hrest ▸ mem_cons_self) (hnew command)
  | cons event middle =>
    obtain ⟨rfl, -⟩ := cons.inj hrest
    exact h before command middle hlog

variable {queue : List PolyConnectionCommand}

/-- The log has gone on without an acceptance or a hand-over. -/
lemma OutboxOk.of_log (h : OutboxOk r queue) (hkeys : r'.cancelOutboxKeys = r.cancelOutboxKeys)
    {new : List OutboxEvent} (hlog : r'.log = r.log ++ new) (hacc : acceptedOf new = [])
    (hhand : handedOf new = []) : OutboxOk r' queue := by
  refine ⟨hkeys ▸ h.keys, h.nodup, ?_⟩
  rw [hlog, acceptedOf_append, handedOf_append, hacc, hhand, h.order, append_nil, append_nil]

/-- The first queued command has left the outbox. -/
lemma OutboxOk.pop (h : OutboxOk r (command :: queue)) {keys : Finset CancelKey}
    (hkeys : keys = command.cancelKey.elim r.cancelOutboxKeys r.cancelOutboxKeys.erase)
    (hkeys' : r'.cancelOutboxKeys = keys) {new : List OutboxEvent} (hlog : r'.log = r.log ++ new)
    (hacc : acceptedOf new = []) (hhand : handedOf new = [command]) : OutboxOk r' queue := by
  refine ⟨fun key => ?_, ?_, ?_⟩
  · rw [hkeys', hkeys]
    have hnd := h.nodup
    have hold := h.keys key
    cases hkey : command.cancelKey with
    | none => simpa [hkey] using hold
    | some k =>
      -- no other command of the queue has the key
      rw [filterMap_cons_some hkey, nodup_cons] at hnd
      rw [elim_some, Finset.mem_erase, hold]
      constructor
      · rintro ⟨hne, c, hc, hck⟩
        rcases mem_cons.1 hc with rfl | hc
        · exact absurd (some.inj (hck.symm.trans hkey)) hne
        · exact ⟨c, hc, hck⟩
      · rintro ⟨c, hc, hck⟩
        refine ⟨?_, c, mem_cons_of_mem _ hc, hck⟩
        rintro rfl
        exact hnd.1 (mem_filterMap.2 ⟨c, hc, hck⟩)
  · exact h.nodup.sublist ((sublist_cons_self command queue).filterMap _)
  · rw [hlog, acceptedOf_append, handedOf_append, hacc, hhand, h.order, append_nil, append_assoc]
    rfl

/-- What holds between two calls. -/
structure RoutesOk (r : PolyAccountConnectionRoutes) : Prop where
  lanes : LanesOk r
  outbox : OutboxOk r r.cancelOutbox
  justified : Justified r.log

/-- The loop of the flush hands over a first part of the outbox. -/
lemma RoutesOk.flushed :
    ∀ (queue : List PolyConnectionCommand) {r : PolyAccountConnectionRoutes}, LanesOk r →
      OutboxOk r queue → Justified r.log →
      RoutesOk (r.flushFrom queue) ∧ ∃ sent, queue = sent ++ (r.flushFrom queue).cancelOutbox
  | [], r, hlanes, hout, hjust =>
    ⟨⟨{ hlanes with  }, { hout with  }, hjust⟩,
      [], rfl⟩
  | command :: queue, r, hlanes, hout, hjust => by
    have hpopped : LanesOk { r with cancelOutbox := queue } := { hlanes with  }
    obtain ⟨hlanes', hsent⟩ := hpopped.trySendPolyOwner command
    unfold flushFrom
    generalize { r with cancelOutbox := queue }.trySendPolyOwner command = out at hlanes' hsent
    obtain ⟨sent, s⟩ := out
    obtain ⟨new, hlog, hacc, hhand, hcoal⟩ := hsent.log
    have hkeys : s.cancelOutboxKeys = r.cancelOutboxKeys := hsent.keys
    dsimp only at hlanes' hlog hhand ⊢
    have hjust' : Justified s.log := hlog ▸ hjust.append hcoal
    cases sent with
    | true =>
      rw [if_pos rfl]
      obtain ⟨hok, front, hfront⟩ := RoutesOk.flushed queue
        (r := { s with
          cancelOutboxKeys := command.cancelKey.elim s.cancelOutboxKeys s.cancelOutboxKeys.erase })
        { hlanes' with  } (hout.pop (hkeys ▸ rfl) rfl hlog hacc hhand)
        hjust'
      exact ⟨hok, command :: front, congrArg (command :: ·) hfront⟩
    | false =>
      rw [if_neg Bool.false_ne_true]
      have hout' := hout.of_log hkeys hlog hacc hhand
      exact ⟨⟨{ hlanes' with  }, { hout' with  },
        hjust'⟩, [], rfl⟩

/-! ## Calls -/

/-- The look at the lanes. It finds only commands that are unanswered. -/
lemma LanesOk.looked (key : CancelKey) :
    ∀ (entries : List (Option CancelKey × ℕ)) {r : PolyAccountConnectionRoutes}, LanesOk r →
      (∀ entry ∈ entries, r.cancelLaneKeys[entry.2]? = some entry.1) →
      LanesOk (onLane key entries r).2 ∧ SameOutbox r (onLane key entries r).2 ∧
        ((onLane key entries r).1 = true →
          ∃ index, Unanswered (onLane key entries r).2.log index key)
  | [], r, h, _ => ⟨h, .refl r, nofun⟩
  | (pending, index) :: entries, r, h, hent => by
    have hrest : ∀ {s : PolyAccountConnectionRoutes}, SameOutbox r s →
        ∀ entry ∈ entries, s.cancelLaneKeys[entry.2]? = some entry.1 := by
      intro s hsame entry hmem
      rw [hsame.laneKeys]
      exact hent entry (.tail _ hmem)
    -- the rest of the loop, after the owners have acted
    have hnext : ∀ {s : PolyAccountConnectionRoutes}, SameOutbox r s → LanesOk s →
        LanesOk (onLane key entries s).2 ∧ SameOutbox r (onLane key entries s).2 ∧
          ((onLane key entries s).1 = true →
            ∃ index, Unanswered (onLane key entries s).2.log index key) := by
      intro s hsame hs
      obtain ⟨hok, hsame', hfound⟩ := LanesOk.looked key entries hs (hrest hsame)
      exact ⟨hok, hsame.trans hsame', hfound⟩
    have hfirst := sameOutbox_await r
    have hsec := hfirst.trans (sameOutbox_await r.await)
    unfold onLane
    split
    · next hpend =>
      dsimp only
      split
      · split
        · next hflag =>
          obtain ⟨lane, hlane, hflag⟩ := (any_eq_true _ _).1 hflag
          refine ⟨h.awaited.awaited, hsec, fun _ => ⟨index, ?_⟩⟩
          refine h.awaited.awaited.marked index lane key hlane hflag ?_
          rw [hsec.laneKeys, hent (pending, index) (.head _), hpend]
        · exact hnext hsec h.awaited.awaited
      · exact hnext hfirst h.awaited
    · exact hnext (.refl r) h

/-- A cancel is found to be repeated only if the first is queued or unanswered. -/
lemma RoutesOk.looked (h : RoutesOk r) (command : PolyConnectionCommand) :
    LanesOk (r.isRepeated command).2 ∧ SameOutbox r (r.isRepeated command).2 ∧
      ((r.isRepeated command).1 = true → ∃ key, command.cancelKey = some key ∧
        ((∃ c ∈ queuedOf (r.isRepeated command).2.log, c.cancelKey = some key) ∨
          ∃ index, Unanswered (r.isRepeated command).2.log index key)) ∧
      ((r.isRepeated command).1 = false →
        ∀ key, command.cancelKey = some key → key ∉ r.cancelOutboxKeys) := by
  unfold isRepeated
  split
  · next hnone =>
    refine ⟨h.lanes, .refl r, nofun, fun _ key hkey => ?_⟩
    rw [hnone] at hkey
    cases hkey
  next key hkey =>
  split
  · next hmem =>
    refine ⟨h.lanes, .refl r, fun _ => ⟨key, hkey, .inl ?_⟩, nofun⟩
    rw [queuedOf, h.outbox.order, drop_left]
    exact (h.outbox.keys key).1 hmem
  next hmem =>
  obtain ⟨hok, hsame, hfound⟩ := h.lanes.looked key
    (r.cancelLaneKeys.take r.cancel.length).zipIdx (by
      rintro ⟨pending, index⟩ hent
      rw [mem_zipIdx_iff_getElem?, getElem?_take] at hent
      split at hent
      · exact hent
      · cases hent)
  refine ⟨hok, hsame, fun htrue => ⟨key, hkey, .inr (hfound htrue)⟩, fun _ k hk => ?_⟩
  rw [hkey] at hk
  cases hk
  exact hmem

lemma LanesOk.note (h : LanesOk r) (hcancel : r'.cancel = r.cancel)
    (hlaneKeys : r'.cancelLaneKeys = r.cancelLaneKeys) {event : OutboxEvent}
    (hlog : r'.log = r.log ++ [event]) (hev : ∀ index c, event ≠ .reply index c) :
    LanesOk r' := by
  refine ⟨hcancel ▸ h.lanes, fun index lane key hlane hpend hkey => ?_⟩
  rw [hcancel] at hlane
  rw [hlaneKeys] at hkey
  rw [hlog]
  refine (h.marked index lane key hlane hpend hkey).append fun c hmem => ?_
  exact hev index c (mem_singleton.1 hmem).symm

/-- A new command at the end of the outbox. -/
lemma OutboxOk.push (h : OutboxOk r queue)
    (hnew : ∀ key, command.cancelKey = some key → key ∉ r.cancelOutboxKeys)
    (hkeys : r'.cancelOutboxKeys =
      command.cancelKey.elim r.cancelOutboxKeys (insert · r.cancelOutboxKeys))
    (hlog : r'.log = r.log ++ [.accepted command]) : OutboxOk r' (queue ++ [command]) := by
  refine ⟨fun key => ?_, ?_, ?_⟩
  · have hold := h.keys key
    rw [hkeys]
    cases hkey : command.cancelKey with
    | none => simpa [hkey, or_and_right, exists_or] using hold
    | some k =>
      simp only [elim_some, Finset.mem_insert, hold, mem_append, mem_singleton,
        or_and_right, exists_or, exists_eq_left, hkey, some.injEq]
      rw [or_comm, eq_comm]
  · rw [filterMap_append]
    cases hkey : command.cancelKey with
    | none => simpa [hkey] using h.nodup
    | some k =>
      rw [filterMap_cons_some hkey, filterMap_nil]
      refine h.nodup.append (nodup_singleton k) ?_
      intro key hmem hk
      cases mem_singleton.1 hk
      obtain ⟨c, hc, hck⟩ := mem_filterMap.1 hmem
      exact hnew k hkey ((h.keys k).2 ⟨c, hc, hck⟩)
  · rw [hlog, acceptedOf_append, handedOf_append, h.order]
    simp [acceptedOf, handedOf, acceptedCommand, handedCommand]

lemma RoutesOk.same (h : RoutesOk r) (hlanes : LanesOk r') (hsame : SameOutbox r r') :
    RoutesOk r' := by
  obtain ⟨replies, hlog, hacc, hhand, hcoal⟩ := (hsame.sent .refreshTransport).log
  have hout := h.outbox.of_log hsame.keys hlog hacc hhand
  exact ⟨hlanes, hsame.outbox ▸ hout, hlog ▸ h.justified.append hcoal⟩

lemma RoutesOk.send (h : RoutesOk r) (command : PolyConnectionCommand) :
    RoutesOk (r.sendPolyOwnerLossless command).2 := by
  obtain ⟨hlanes, hsame, hfound, hfresh⟩ := h.looked command
  have hlooked := h.same hlanes hsame
  have hkeys := hsame.keys
  unfold sendPolyOwnerLossless
  generalize r.isRepeated command = out at hlooked hfound hfresh hkeys
  obtain ⟨repeated, s⟩ := out
  dsimp only at hlooked hfound hfresh hkeys ⊢
  obtain ⟨hlanes, hout, hjustified⟩ := hlooked
  cases repeated with
  | true =>
    rw [if_pos rfl]
    refine ⟨hlanes.note rfl rfl rfl (by simp), hout.of_log rfl rfl rfl rfl, ?_⟩
    intro before c after heq
    rcases eq_nil_or_concat' after with rfl | ⟨after, last, rfl⟩
    · obtain ⟨rfl, hcomm⟩ := append_inj' heq rfl
      cases hcomm
      exact hfound rfl
    · rw [← cons_append, ← append_assoc] at heq
      exact hjustified before c after (append_inj' heq rfl).1
  | false =>
    rw [if_neg Bool.false_ne_true]
    obtain ⟨hflushed, front, hfront⟩ := RoutesOk.flushed s.cancelOutbox hlanes hout hjustified
    -- a key that was not queued before the flush is not queued after it
    have hnew : ∀ key, command.cancelKey = some key →
        key ∉ (s.flushPolyCancelOutbox).cancelOutboxKeys := by
      intro key hkey hmem
      obtain ⟨c, hc, hck⟩ := (hflushed.outbox.keys key).1 hmem
      refine hfresh rfl key hkey (hkeys ▸ (hout.keys key).2 ⟨c, ?_, hck⟩)
      rw [hfront]
      exact mem_append_right _ hc
    change RoutesOk s.flushPolyCancelOutbox at hflushed
    generalize s.flushPolyCancelOutbox = t at hflushed hnew
    -- the attempt that an empty outbox allows
    have htry : ∃ sent u, (if t.cancelOutbox.isEmpty then t.trySendPolyOwner command
        else (false, t)) = (sent, u) ∧ LanesOk u ∧ Sent t u command sent ∧
          (sent = true → t.cancelOutbox = []) := by
      split
      · next hempty =>
        obtain ⟨hok, hsent⟩ := hflushed.lanes.trySendPolyOwner command
        exact ⟨_, _, rfl, hok, hsent, fun _ => isEmpty_iff.1 hempty⟩
      · exact ⟨_, _, rfl, hflushed.lanes, (SameOutbox.refl t).sent command, nofun⟩
    obtain ⟨sent, u, heq, hlanes', hsent, hempty⟩ := htry
    rw [heq]
    obtain ⟨new, hlog, hacc, hhand, hcoal⟩ := hsent.log
    have hjust' : Justified u.log := hlog ▸ hflushed.justified.append hcoal
    have hjust : ∀ event, (∀ c, event ≠ .coalesced c) → Justified (u.log ++ [event]) :=
      fun event hev => hjust'.append fun c hmem =>
        hev c (mem_singleton.1 hmem).symm
    cases sent with
    | true =>
      rw [if_pos rfl]
      refine ⟨hlanes'.note rfl rfl rfl (by simp), ⟨?_, ?_, ?_⟩, hjust _ (by simp)⟩
      · dsimp only
        rw [hsent.keys, hsent.outbox]
        exact hflushed.outbox.keys
      · dsimp only
        rw [hsent.outbox]
        exact hflushed.outbox.nodup
      · have hord := hflushed.outbox.order
        rw [hempty rfl, append_nil] at hord
        rw [hsent.outbox, hempty rfl, hlog]
        simp only [acceptedOf_append, handedOf_append, hacc, hhand, hord]
        simp [acceptedOf, handedOf, acceptedCommand, handedCommand]
    | false =>
      rw [if_neg Bool.false_ne_true]
      have hout' : OutboxOk u u.cancelOutbox :=
        hsent.outbox ▸ hflushed.outbox.of_log hsent.keys hlog hacc hhand
      split
      · exact ⟨hlanes'.note rfl rfl rfl (by simp), hout'.of_log rfl rfl rfl rfl, hjust _ (by simp)⟩
      · have hnew' : ∀ key, command.cancelKey = some key → key ∉ u.cancelOutboxKeys :=
          fun key hkey => hsent.keys ▸ hnew key hkey
        exact ⟨hlanes'.note rfl rfl rfl (by simp), hout'.push hnew' rfl rfl, hjust _ (by simp)⟩

lemma RoutesOk.call (h : RoutesOk r) (call : Call) : RoutesOk (r.call call) := by
  cases call with
  | send command => exact h.send command
  | flush => exact (RoutesOk.flushed r.cancelOutbox h.lanes h.outbox h.justified).1
  | refreshHealth resets =>
    obtain ⟨hlanes, hsame⟩ := h.lanes.refreshed
    exact h.same hlanes hsame
  | owner lane action => exact h.same (h.lanes.acted _) sameOutbox_act

/-! ## Runs -/

lemma routesOk_new {slots : List ℕ} {owners : List (List (ℕ × OwnerAction))}
    {turns : List HealthTurn} : RoutesOk (new slots owners turns) := by
  have hlane : ∀ (index : ℕ) (lane : PolyConnectionLane),
      (new slots owners turns).cancel[index]? = some lane → ∃ slot, lane = { slot := slot } := by
    intro index lane hlane
    simp only [new, getElem?_map, map_eq_some_iff] at hlane
    obtain ⟨slot, -, rfl⟩ := hlane
    exact ⟨slot, rfl⟩
  refine ⟨⟨fun index lane h => ?_, fun index lane key h hpend => ?_⟩, ⟨?_, ?_, rfl⟩, ?_⟩
  · obtain ⟨slot, rfl⟩ := hlane index lane h
    exact ⟨by simp, fun _ => ⟨rfl, rfl⟩, nofun⟩
  · obtain ⟨slot, rfl⟩ := hlane index lane h
    cases hpend
  · simp [new]
  · exact nodup_nil
  · intro before command after heq
    simp [new] at heq

lemma RoutesOk.run (h : RoutesOk r) (calls : List Call) : RoutesOk (r.run calls) :=
  foldlRecOn calls _ h fun _ hs call _ => hs.call call

/-- In every run: the keys of the outbox are the keys of its commands, no key is queued twice, the
accepted commands are those that were handed to the lanes, in order, and then the queued ones, and a
cancel is dropped only when the first with its key is queued, or is on a lane that has not built a
reply. -/
theorem cancels_kept_in_order (slots : List ℕ) (owners : List (List (ℕ × OwnerAction)))
    (turns : List HealthTurn) (calls : List Call) : let r := (new slots owners turns).run calls
    (∀ key, key ∈ r.cancelOutboxKeys ↔ ∃ c ∈ r.cancelOutbox, c.cancelKey = some key) ∧
    (r.cancelOutbox.filterMap PolyConnectionCommand.cancelKey).Nodup ∧
    acceptedOf r.log = handedOf r.log ++ r.cancelOutbox ∧
    ∀ before command after, r.log = before ++ .coalesced command :: after →
      ∃ key, command.cancelKey = some key ∧
        ((∃ c ∈ queuedOf before, c.cancelKey = some key) ∨
          ∃ index, Unanswered before index key) := by
  intro r
  have hok : RoutesOk r := routesOk_new.run calls
  exact ⟨hok.outbox.keys, hok.outbox.nodup, hok.outbox.order, hok.justified⟩

/-- One lane. The first cancel is on it and the second waits; a repetition of either is dropped. -/
def repeatedCancels : List Call :=
  [.send (.cancel 1 "a" "first" 1), .send (.cancel 1 "a" "first" 2),
    .send (.cancel 1 "a" "second" 3), .send (.cancel 1 "a" "second" 4)]

theorem repeated_cancels_dropped : let r := (new [1] [] []).run repeatedCancels
    r.log = [.handed 0 (.cancel 1 "a" "first" 1), .accepted (.cancel 1 "a" "first" 1),
      .coalesced (.cancel 1 "a" "first" 2), .accepted (.cancel 1 "a" "second" 3),
      .coalesced (.cancel 1 "a" "second" 4)] ∧
    r.cancelOutbox = [.cancel 1 "a" "second" 3] ∧
    acceptedOf r.log = handedOf r.log ++ r.cancelOutbox := by
  intro r
  refine ⟨by decide +kernel, by decide +kernel, ?_⟩
  exact (cancels_kept_in_order [1] [] [] repeatedCancels).2.2.1

/-- The shutdown hands over a first part of the outbox as well. -/
lemma OutboxOk.drained :
    ∀ (queue : List PolyConnectionCommand) {r : PolyAccountConnectionRoutes}, OutboxOk r queue →
      OutboxOk (r.drainFrom queue) (r.drainFrom queue).cancelOutbox
  | [], r, h => { h with  }
  | command :: queue, r, h => by
    unfold drainFrom
    dsimp only
    split
    · exact { h with  }
    · split
      · exact OutboxOk.drained queue (h.pop rfl rfl rfl rfl rfl)
      · exact { h with  }

lemma drainFrom_of_alive : ∀ (queue : List PolyConnectionCommand) {r : PolyAccountConnectionRoutes},
    r.cancel ≠ [] → (∀ lane ∈ r.cancel, lane.receiverAlive = true) →
      (r.drainFrom queue).cancelOutbox = []
  | [], _, _, _ => rfl
  | command :: queue, r, hne, halive => by
    have hpos := length_pos_iff.2 hne
    have hindex := Nat.mod_lt r.cancelRr hpos
    have hlane := halive _ (getElem_mem hindex)
    simp only [drainFrom, Nat.max_eq_left hpos, getElem?_eq_getElem hindex, hlane, if_true]
    refine drainFrom_of_alive queue (by simpa using hne) fun lane hmem => ?_
    rcases mem_or_eq_of_mem_set hmem with hold | rfl
    · exact halive lane hold
    · rfl

/-- After any run the shutdown hands over a first part of the outbox, in order; and all of it, so
that every accepted cancel has reached a lane, if the lanes have their owners. -/
theorem shutdown_hands_over (slots : List ℕ) (owners : List (List (ℕ × OwnerAction)))
    (turns : List HealthTurn) (calls : List Call) : let r := (new slots owners turns).run calls
    let d := r.drainPolyCancelOutboxForShutdown
    acceptedOf d.log = handedOf d.log ++ d.cancelOutbox ∧
      (r.cancel ≠ [] → (∀ lane ∈ r.cancel, lane.receiverAlive = true) → d.cancelOutbox = []) := by
  intro r d
  have hok : RoutesOk r := routesOk_new.run calls
  exact ⟨(OutboxOk.drained _ hok.outbox).order, drainFrom_of_alive _⟩

/-- The shutdown hands over the second cancel, which waits behind the first. -/
theorem shutdown_hands_over_second : let r := (new [1] [] []).run repeatedCancels
    let d := r.drainPolyCancelOutboxForShutdown
    r.cancelOutbox = [.cancel 1 "a" "second" 3] ∧ d.cancelOutbox = [] ∧
      handedOf d.log = [.cancel 1 "a" "first" 1, .cancel 1 "a" "second" 3] ∧
      acceptedOf d.log = handedOf d.log ++ d.cancelOutbox := by
  intro r d
  obtain ⟨horder, hempty⟩ := shutdown_hands_over [1] [] [] repeatedCancels
  exact ⟨by decide +kernel, hempty (by decide +kernel) (by decide +kernel), by decide +kernel,
    horder⟩

end HexAgent.CancelOutbox
