import HexAgent.ToMathlib.Trace

/-!
# Event lanes of the market feed

The reader of the market socket hands its events to the engine over two bounded lanes. Events that a
later one does not replace (trades, lifecycle, health) go to the critical lane, which refuses an
event when it is full; books and quotes go to the replaceable lane, whose oldest entry gives way to
a new one. Every event gets a sequence number, and the receiver merges the lanes by it: it holds one
event of each lane at most (`pendingCritical`, `pendingReplaceable`) and hands out the older one.

`ClobLanes` is the joint state of the sender and the receiver. `step` is one atomic operation on it:
the counter, a `try_send`, a `try_recv`, or the choice between the events at hand. A call of
`send_with_origin` is a sequence of `send`, `trySend` and, on a full replaceable lane, `evict` and
`resend`; a call of `recv_timeout` is `recv`, `pollReplaceable`, `pop` and, if nothing was there,
one of the two receives of the select or its timeout, then `refillCritical`, `refillReplaceable` and
`popLast`. The operations of the two sides are interleaved in any order.

The lanes are generic in their capacities. The stamps that the sender puts on quotes, and the
disconnection of a side, are left out. The sequence number is unbounded; that of the source, a
`u64`, wraps after `2 ^ 64` calls of `send_with_origin`.
-/

namespace HexAgent.Clob

open Option

/-! ## Events -/

/-- Variants of `MarketEvent`. -/
inductive EventKind
  | orderBook
  | trade
  | quote
  | bar
  | tickSizeChange
  | spotPrice
  | assetCtx
  | instrument
  | marketDataHealth
  | connected
  | disconnected
  | eventStart
  | eventEnd
  | exit
  deriving DecidableEq

/-- A market event, with any content. -/
structure MarketEvent (π : Type) where
  kind : EventKind
  content : π
  deriving DecidableEq

variable {π : Type}

def MarketEvent.isReplaceable (event : MarketEvent π) : Bool :=
  event.kind == .orderBook || event.kind == .quote

/-- An event with its number. -/
structure ClobEventEnvelope (π : Type) where
  sequence : ℕ
  event : MarketEvent π
  deriving DecidableEq

namespace ClobEventEnvelope

def isReplaceable (env : ClobEventEnvelope π) : Bool := env.event.isReplaceable

def isCritical (env : ClobEventEnvelope π) : Bool := !env.isReplaceable

end ClobEventEnvelope

/-! ## The two sides -/

/-- Capacities of the lanes, `CLOB_CRITICAL_EVENT_CAPACITY` and
`CLOB_REPLACEABLE_EVENT_CAPACITY`. -/
structure LaneCapacity where
  critical : ℕ := 2048
  replaceable : ℕ := 8192

/-- Where the sender is in its call. -/
inductive Sending (π : Type)
  | idle
  /-- The event has its number. -/
  | publish (env : ClobEventEnvelope π)
  /-- The replaceable lane was full. -/
  | evict (env : ClobEventEnvelope π)
  /-- Room was made. -/
  | resend (env : ClobEventEnvelope π)
  deriving DecidableEq

/-- Where the receiver is in its call: the operation it makes next. -/
inductive Receiving
  | idle
  | pollReplaceable
  | pop
  | select
  | refillCritical
  | refillReplaceable
  | popLast
  deriving DecidableEq

/-- Sender, lanes and receiver. -/
structure ClobLanes (π : Type) where
  nextSequence : ℕ := 0
  criticalLane : List (ClobEventEnvelope π) := []
  replaceableLane : List (ClobEventEnvelope π) := []
  pendingCritical : Option (ClobEventEnvelope π) := none
  pendingReplaceable : Option (ClobEventEnvelope π) := none
  sending : Sending π := .idle
  receiving : Receiving := .idle
  criticalOverflows : ℕ := 0
  replaceableEvictions : ℕ := 0
  /-- History, oldest first: the events whose send returned true. Nothing reads it. -/
  accepted : List (ClobEventEnvelope π) := []
  /-- History: the events handed out. -/
  delivered : List (ClobEventEnvelope π) := []
  /-- History: the events taken out of the replaceable lane by the sender. -/
  evicted : List (ClobEventEnvelope π) := []
  deriving DecidableEq

/-- The atomic operations. -/
inductive LaneAction (π : Type)
  | send (event : MarketEvent π)
  | trySend
  | evict
  | resend
  | recv
  | pollReplaceable
  | pop
  | selectCritical
  | selectReplaceable
  | timeout
  | refillCritical
  | refillReplaceable
  | popLast

namespace ClobLanes

variable (s : ClobLanes π)

/-! ## Operations of the sender -/

variable (env : ClobEventEnvelope π)

/-- A `try_send` on the critical lane that succeeds. -/
def acceptCritical : ClobLanes π :=
  { s with
    criticalLane := s.criticalLane ++ [env]
    accepted := s.accepted ++ [env]
    sending := .idle }

/-- A `try_send` on the replaceable lane that succeeds. -/
def acceptReplaceable : ClobLanes π :=
  { s with
    replaceableLane := s.replaceableLane ++ [env]
    accepted := s.accepted ++ [env]
    sending := .idle }

/-- The first `try_send` of a call. -/
def trySend (capacity : LaneCapacity) (env : ClobEventEnvelope π) : ClobLanes π :=
  if env.isReplaceable then
    if s.replaceableLane.length < capacity.replaceable then s.acceptReplaceable env
    else { s with sending := .evict env }
  else if s.criticalLane.length < capacity.critical then s.acceptCritical env
  else { s with criticalOverflows := s.criticalOverflows + 1, sending := .idle }

/-- The sender's own `try_recv` on the replaceable lane. -/
def evictOldest : ClobLanes π :=
  match s.replaceableLane with
  | [] => { s with sending := .resend env }
  | oldest :: lane =>
    { s with
      replaceableLane := lane
      replaceableEvictions := s.replaceableEvictions + 1
      evicted := s.evicted ++ [oldest]
      sending := .resend env }

/-- The second `try_send` of a call. -/
def resend (capacity : LaneCapacity) (env : ClobEventEnvelope π) : ClobLanes π :=
  if s.replaceableLane.length < capacity.replaceable then s.acceptReplaceable env
  else { s with sending := .idle }

/-! ## Operations of the receiver -/

/-- First half of `fill_pending`. -/
def pollCritical : ClobLanes π :=
  if s.pendingCritical.isNone then
    { s with pendingCritical := s.criticalLane.head?, criticalLane := s.criticalLane.tail }
  else s

/-- Second half of `fill_pending`. -/
def pollReplaceable : ClobLanes π :=
  if s.pendingReplaceable.isNone then
    { s with
      pendingReplaceable := s.replaceableLane.head?
      replaceableLane := s.replaceableLane.tail }
  else s

/-- Hand out the critical event at hand. -/
def deliverCritical : ClobLanes π :=
  { s with pendingCritical := none, delivered := s.delivered ++ [env], receiving := .idle }

/-- Hand out the replaceable event at hand. -/
def deliverReplaceable : ClobLanes π :=
  { s with pendingReplaceable := none, delivered := s.delivered ++ [env], receiving := .idle }

/-- `pop_next`; with nothing at hand the receiver goes on as given. -/
def popNext (otherwise : Receiving) : ClobLanes π :=
  match s.pendingCritical, s.pendingReplaceable with
  | some critical, some replaceable =>
    if critical.sequence ≤ replaceable.sequence then s.deliverCritical critical
    else s.deliverReplaceable replaceable
  | some critical, none => s.deliverCritical critical
  | none, some replaceable => s.deliverReplaceable replaceable
  | none, none => { s with receiving := otherwise }

/-- The receive of the select on the critical lane. -/
def selectCritical : ClobLanes π :=
  { s with
    pendingCritical := s.criticalLane.head?
    criticalLane := s.criticalLane.tail
    receiving := .refillCritical }

/-- The receive of the select on the replaceable lane. -/
def selectReplaceable : ClobLanes π :=
  { s with
    pendingReplaceable := s.replaceableLane.head?
    replaceableLane := s.replaceableLane.tail
    receiving := .refillCritical }

/-- One atomic operation, if it is the sender's or the receiver's next one. -/
def step (capacity : LaneCapacity) : LaneAction π → Option (ClobLanes π)
  | .send event =>
    match s.sending with
    | .idle => some { s with
        nextSequence := s.nextSequence + 1, sending := .publish ⟨s.nextSequence, event⟩ }
    | _ => none
  | .trySend =>
    match s.sending with
    | .publish env => some (s.trySend capacity env)
    | _ => none
  | .evict =>
    match s.sending with
    | .evict env => some (s.evictOldest env)
    | _ => none
  | .resend =>
    match s.sending with
    | .resend env => some (s.resend capacity env)
    | _ => none
  | .recv =>
    if s.receiving = .idle then some { s.pollCritical with receiving := .pollReplaceable } else none
  | .pollReplaceable =>
    if s.receiving = .pollReplaceable then some { s.pollReplaceable with receiving := .pop }
    else none
  | .pop => if s.receiving = .pop then some (s.popNext .select) else none
  | .selectCritical =>
    if s.receiving = .select ∧ s.criticalLane ≠ [] then some s.selectCritical else none
  | .selectReplaceable =>
    if s.receiving = .select ∧ s.replaceableLane ≠ [] then some s.selectReplaceable else none
  | .timeout => if s.receiving = .select then some { s with receiving := .idle } else none
  | .refillCritical =>
    if s.receiving = .refillCritical then
      some { s.pollCritical with receiving := .refillReplaceable }
    else none
  | .refillReplaceable =>
    if s.receiving = .refillReplaceable then some { s.pollReplaceable with receiving := .popLast }
    else none
  | .popLast => if s.receiving = .popLast then some (s.popNext .idle) else none

/-- The operations in order, if each is possible. -/
def run (capacity : LaneCapacity) (s : ClobLanes π) : List (LaneAction π) → Option (ClobLanes π)
  | [] => some s
  | a :: actions => (s.step capacity a).bind fun s' => s'.run capacity actions

/-! ## What an operation can do -/

/-- The effect of one atomic operation. -/
inductive LaneStep (capacity : LaneCapacity) (s : ClobLanes π) (a : LaneAction π) :
    ClobLanes π → Prop
  | number (event : MarketEvent π) : s.sending = .idle → LaneStep capacity s a { s with
      nextSequence := s.nextSequence + 1, sending := .publish ⟨s.nextSequence, event⟩ }
  | acceptCritical (env : ClobEventEnvelope π) : s.sending = .publish env →
      env.isReplaceable = false → LaneStep capacity s a (s.acceptCritical env)
  | refuse (env : ClobEventEnvelope π) : s.sending = .publish env → LaneStep capacity s a
      { s with criticalOverflows := s.criticalOverflows + 1, sending := .idle }
  | full (env : ClobEventEnvelope π) : s.sending = .publish env → env.isReplaceable = true →
      LaneStep capacity s a { s with sending := .evict env }
  | acceptReplaceable (env : ClobEventEnvelope π) :
      s.sending = .publish env ∧ env.isReplaceable = true ∨ s.sending = .resend env →
      s.replaceableLane.length < capacity.replaceable →
      LaneStep capacity s a (s.acceptReplaceable env)
  | evictNothing (env : ClobEventEnvelope π) : s.sending = .evict env → s.replaceableLane = [] →
      LaneStep capacity s a { s with sending := .resend env }
  | evictOldest (env oldest : ClobEventEnvelope π) (lane : List (ClobEventEnvelope π)) :
      a = .evict → s.sending = .evict env → s.replaceableLane = oldest :: lane →
        LaneStep capacity s a { s with
        replaceableLane := lane
        replaceableEvictions := s.replaceableEvictions + 1
        evicted := s.evicted ++ [oldest]
        sending := .resend env }
  | resendFails (env : ClobEventEnvelope π) : s.sending = .resend env →
      ¬ s.replaceableLane.length < capacity.replaceable →
      LaneStep capacity s a { s with sending := .idle }
  | takeCritical (next : Receiving) (env : ClobEventEnvelope π)
      (lane : List (ClobEventEnvelope π)) :
      s.receiving = .idle ∧ next = .pollReplaceable ∨
        s.receiving = .refillCritical ∧ next = .refillReplaceable →
      s.pendingCritical = none → s.criticalLane = env :: lane → LaneStep capacity s a
        { s with pendingCritical := some env, criticalLane := lane, receiving := next }
  | skipCritical (next : Receiving) :
      s.receiving = .idle ∧ next = .pollReplaceable ∨
        s.receiving = .refillCritical ∧ next = .refillReplaceable →
      (s.pendingCritical = none → s.criticalLane = []) →
      LaneStep capacity s a { s with receiving := next }
  | takeReplaceable (next : Receiving) (env : ClobEventEnvelope π)
      (lane : List (ClobEventEnvelope π)) :
      a = .pollReplaceable ∧ s.receiving = .pollReplaceable ∧ next = .pop ∨
        s.receiving = .refillReplaceable ∧ next = .popLast →
      s.pendingReplaceable = none → s.replaceableLane = env :: lane → LaneStep capacity s a
        { s with pendingReplaceable := some env, replaceableLane := lane, receiving := next }
  | skipReplaceable (next : Receiving) :
      s.receiving = .pollReplaceable ∧ next = .pop ∨
        s.receiving = .refillReplaceable ∧ next = .popLast →
      (s.pendingReplaceable = none → s.replaceableLane = []) →
      LaneStep capacity s a { s with receiving := next }
  | deliverCritical (env : ClobEventEnvelope π) : s.receiving = .pop ∨ s.receiving = .popLast →
      s.pendingCritical = some env →
      (∀ other, s.pendingReplaceable = some other → env.sequence ≤ other.sequence) →
      LaneStep capacity s a (s.deliverCritical env)
  | deliverReplaceable (env : ClobEventEnvelope π) : s.receiving = .pop ∨ s.receiving = .popLast →
      s.pendingReplaceable = some env →
      (∀ other, s.pendingCritical = some other → env.sequence < other.sequence) →
      LaneStep capacity s a (s.deliverReplaceable env)
  | deliverNothing (next : Receiving) : next = .select ∨ next = .idle →
      s.pendingCritical = none → s.pendingReplaceable = none →
      LaneStep capacity s a { s with receiving := next }
  | selectCritical (env : ClobEventEnvelope π) (lane : List (ClobEventEnvelope π)) :
      s.receiving = .select → s.criticalLane = env :: lane → LaneStep capacity s a
        { s with pendingCritical := some env, criticalLane := lane, receiving := .refillCritical }
  | selectReplaceable (env : ClobEventEnvelope π) (lane : List (ClobEventEnvelope π)) :
      s.receiving = .select → s.replaceableLane = env :: lane → LaneStep capacity s a { s with
        pendingReplaceable := some env, replaceableLane := lane, receiving := .refillCritical }
  | timeout : s.receiving = .select → LaneStep capacity s a { s with receiving := .idle }

section

variable {s} {s' : ClobLanes π} {capacity : LaneCapacity} {a : LaneAction π} {next : Receiving}

lemma laneStep_pollCritical (h : s.receiving = .idle ∧ next = .pollReplaceable ∨
    s.receiving = .refillCritical ∧ next = .refillReplaceable) :
    LaneStep capacity s a { s.pollCritical with receiving := next } := by
  unfold pollCritical
  split
  · next hnone =>
    rw [isNone_iff_eq_none] at hnone
    cases hlane : s.criticalLane with
    | nil =>
      have hskip : LaneStep capacity s a { s with receiving := next } :=
        .skipCritical next h fun _ => hlane
      simpa [hnone, hlane] using hskip
    | cons env lane => exact .takeCritical next env lane h hnone hlane
  · next hsome => exact .skipCritical next h fun hnone => by simp [hnone] at hsome

lemma laneStep_pollReplaceable
    (h : a = .pollReplaceable ∧ s.receiving = .pollReplaceable ∧ next = .pop ∨
      s.receiving = .refillReplaceable ∧ next = .popLast) :
    LaneStep capacity s a { s.pollReplaceable with receiving := next } := by
  unfold pollReplaceable
  split
  · next hnone =>
    rw [isNone_iff_eq_none] at hnone
    cases hlane : s.replaceableLane with
    | nil =>
      have hskip : LaneStep capacity s a { s with receiving := next } :=
        .skipReplaceable next (h.imp_left And.right) fun _ => hlane
      simpa [hnone, hlane] using hskip
    | cons env lane => exact .takeReplaceable next env lane h hnone hlane
  · next hsome =>
    exact .skipReplaceable next (h.imp_left And.right) fun hnone => by simp [hnone] at hsome

lemma laneStep_popNext (h : s.receiving = .pop ∨ s.receiving = .popLast)
    (hnext : next = .select ∨ next = .idle) : LaneStep capacity s a (s.popNext next) := by
  unfold popNext
  split
  · next critical replaceable hcrit hrepl =>
    split
    · next hle =>
      refine .deliverCritical critical h hcrit fun other hne => ?_
      cases hrepl.symm.trans hne
      exact hle
    next hlt =>
    refine .deliverReplaceable replaceable h hrepl fun other hne => ?_
    cases hcrit.symm.trans hne
    omega
  · next critical hcrit hnone =>
    refine .deliverCritical critical h hcrit fun other hne => ?_
    cases hnone.symm.trans hne
  · next replaceable hnone hrepl =>
    refine .deliverReplaceable replaceable h hrepl fun other hne => ?_
    cases hnone.symm.trans hne
  · next hcrit hrepl => exact .deliverNothing next hnext hcrit hrepl

lemma of_ite {p : Prop} [Decidable p] {t : ClobLanes π}
    (h : (if p then some t else none) = some s') :
    p ∧ t = s' :=
  ((ite_none_right_eq_some ..).1 h).imp_right some.inj

/-- Every operation has one of the effects. -/
lemma laneStep_of_step (h : s.step capacity a = some s') : LaneStep capacity s a s' := by
  cases a with
  | send event =>
    simp only [step] at h
    split at h <;> cases h
    next hidle => exact .number event hidle
  | trySend =>
    simp only [step] at h
    split at h <;> cases h
    next env hpub =>
    unfold trySend
    split
    · next hrepl =>
      split
      · next hroom => exact .acceptReplaceable env (.inl ⟨hpub, hrepl⟩) hroom
      · exact .full env hpub hrepl
    next hcrit =>
    split
    · exact .acceptCritical env hpub (by simpa using hcrit)
    · exact .refuse env hpub
  | evict =>
    simp only [step] at h
    split at h <;> cases h
    next env hevict =>
    unfold evictOldest
    split
    · next hlane => exact .evictNothing env hevict hlane
    · next oldest lane hlane => exact .evictOldest env oldest lane rfl hevict hlane
  | resend =>
    simp only [step] at h
    split at h <;> cases h
    next env hres =>
    unfold resend
    split
    · next hroom => exact .acceptReplaceable env (.inr hres) hroom
    · next hfull => exact .resendFails env hres hfull
  | recv =>
    obtain ⟨hidle, rfl⟩ := of_ite h
    exact laneStep_pollCritical (.inl ⟨hidle, rfl⟩)
  | pollReplaceable =>
    obtain ⟨hpoll, rfl⟩ := of_ite h
    exact laneStep_pollReplaceable (.inl ⟨rfl, hpoll, rfl⟩)
  | pop =>
    obtain ⟨hpop, rfl⟩ := of_ite h
    exact laneStep_popNext (.inl hpop) (.inl rfl)
  | selectCritical =>
    obtain ⟨⟨hsel, hlane⟩, rfl⟩ := of_ite h
    obtain ⟨env, lane, heq⟩ := List.exists_cons_of_ne_nil hlane
    unfold selectCritical
    rw [heq]
    exact .selectCritical env lane hsel heq
  | selectReplaceable =>
    obtain ⟨⟨hsel, hlane⟩, rfl⟩ := of_ite h
    obtain ⟨env, lane, heq⟩ := List.exists_cons_of_ne_nil hlane
    unfold selectReplaceable
    rw [heq]
    exact .selectReplaceable env lane hsel heq
  | timeout =>
    obtain ⟨hsel, rfl⟩ := of_ite h
    exact .timeout hsel
  | refillCritical =>
    obtain ⟨href, rfl⟩ := of_ite h
    exact laneStep_pollCritical (.inr ⟨href, rfl⟩)
  | refillReplaceable =>
    obtain ⟨href, rfl⟩ := of_ite h
    exact laneStep_pollReplaceable (.inr ⟨href, rfl⟩)
  | popLast =>
    obtain ⟨hpop, rfl⟩ := of_ite h
    exact laneStep_popNext (.inr hpop) (.inr rfl)

end

end ClobLanes

end HexAgent.Clob
