import HexAgent.Exchange.RecoveryDelivery

/-!
# The outbox of private deliveries

The owner thread of an account hands private updates to the root sink or to a direct channel. An
update that is not taken is retained, and every later one waits behind it, so that none is
overtaken; each turn of the owner offers the first one again. A mark with the time of the first one
keeps new orders out for as long as anything is retained.

What a destination answers and what the clock reads are inputs. No update is looked into, so their
type is a parameter, and so is the type of the destinations.
-/

namespace HexAgent.Exchange

open List

variable {D U : Type}

def privateDeliveryOutboxCapacity : ℕ := 1024

/-- What `try_deliver` returns. -/
inductive TrySend
  | ok
  | full
  | disconnected

inductive PrivateDeliveryTarget (D : Type)
  | root (sink : D)
  | direct (tx : D)

def PrivateDeliveryTarget.destination : PrivateDeliveryTarget D → D
  | .root sink => sink
  | .direct tx => tx

structure RetainedPrivateDelivery (D U : Type) where
  target : PrivateDeliveryTarget D
  update : U

/-- The owner, and the flag of the account's health that it sets. -/
structure RecoveryDeliveryOwner (D U : Type) where
  delivery : RecoveryDeliveryState := {}
  deliveryBackpressureSince : ℕ := 0
  rootSink : Option D := none
  outbox : List (RetainedPrivateDelivery D U) := []
  inventoryUncertain : Bool := false
  /-- What the destinations have taken so far. -/
  received : List (RetainedPrivateDelivery D U) := []
  /-- What the callers were told is accepted. -/
  accepted : List (RetainedPrivateDelivery D U) := []

namespace RecoveryDeliveryOwner

variable (s : RecoveryDeliveryOwner D U)

def target (direct : Option D) : Except String (PrivateDeliveryTarget D) :=
  match direct, s.rootSink with
  | some tx, _ => .ok (.direct tx)
  | none, some sink => .ok (.root sink)
  | none, none => .error "private root sink missing"

/-- The end of `deliver_private_owned`: the mark is set unless it is, and the update queued. -/
def retain (d : RetainedPrivateDelivery D U) (now : ℕ) : RecoveryDeliveryOwner D U :=
  { s with
    deliveryBackpressureSince :=
      if s.deliveryBackpressureSince = 0 then now else s.deliveryBackpressureSince
    outbox := s.outbox ++ [d] }

/-- `deliver_private_owned`. The answer is that of the target, which is asked if the outbox is
empty. -/
def deliverPrivateOwned (update : U) (direct : Option D) (answer : TrySend) (now : ℕ) :
    Except String Unit × RecoveryDeliveryOwner D U :=
  match s.target direct with
  | .error e => (.error e, s)
  | .ok target =>
    if s.outbox.length = privateDeliveryOutboxCapacity then
      (.error "private delivery outbox full; authoritative replay required",
        { s with inventoryUncertain := true })
    else if s.outbox.isEmpty then
      match answer with
      | .ok => (.ok (), { s with received := s.received ++ [⟨target, update⟩] })
      | .full => (.ok (), s.retain ⟨target, update⟩ now)
      | .disconnected =>
        (.ok (), { s with inventoryUncertain := true }.retain ⟨target, update⟩ now)
    else (.ok (), s.retain ⟨target, update⟩ now)

/-- The first half of `service_one`. -/
def serviceOutbox (answer : TrySend) : Bool × RecoveryDeliveryOwner D U :=
  match s.outbox, answer with
  | d :: outbox, .ok => (true, { s with
      outbox := outbox
      received := s.received ++ [d]
      deliveryBackpressureSince := if outbox.isEmpty then 0 else s.deliveryBackpressureSince })
  | _, _ => (false, s)

/-- `service_one`: one attempt, and one command if there is one. -/
def serviceOne (answer : TrySend) (command : Option RecoveryDeliveryCommand) :
    Bool × RecoveryDeliveryOwner D U :=
  let (progressed, s) := s.serviceOutbox answer
  match command with
  | some command => (true, { s with delivery := (s.delivery.execute command).1 })
  | none => (progressed, s)

/-- `is_recovering`, with the word of the recovery gate. -/
def isRecovering (recoveringState : ℕ) : Bool :=
  recoveringState % 2 ≠ 0 ∨ s.deliveryBackpressureSince ≠ 0

/-- Calls of the owner thread. -/
inductive Call (D U : Type)
  | deliver (update : U) (direct : Option D) (answer : TrySend) (now : ℕ)
  | service (answer : TrySend) (command : Option RecoveryDeliveryCommand)

/-- A call, and the note of what it has accepted. -/
def step : Call D U → RecoveryDeliveryOwner D U
  | .deliver update direct answer now =>
    match s.deliverPrivateOwned update direct answer now, s.target direct with
    | (.ok _, s), .ok target => { s with accepted := s.accepted ++ [⟨target, update⟩] }
    | (_, s), _ => s
  | .service answer command => (s.serviceOne answer command).2

def run (calls : List (Call D U)) : RecoveryDeliveryOwner D U := calls.foldl step s

/-- The clock of a call does not read zero. -/
def Call.Clocked : Call D U → Prop
  | .deliver _ _ _ now => now ≠ 0
  | .service .. => True

/-! ## One call -/

/-- Nothing accepted is lost or repeated, and the outbox does not grow beyond its bound. -/
structure Kept : Prop where
  order : s.received ++ s.outbox = s.accepted
  bound : s.outbox.length ≤ privateDeliveryOutboxCapacity

/-- The mark is set exactly while something is retained. -/
def Marked : Prop := s.deliveryBackpressureSince ≠ 0 ↔ s.outbox ≠ []

variable {s} {d : RetainedPrivateDelivery D U}

/-- An update is queued and noted as accepted. -/
lemma Kept.retained {s' : RecoveryDeliveryOwner D U} (h : s.Kept)
    (hfull : s.outbox.length ≠ privateDeliveryOutboxCapacity) (hrec : s'.received = s.received)
    (hout : s'.outbox = s.outbox ++ [d]) (hacc : s'.accepted = s.accepted ++ [d]) : s'.Kept where
  order := by rw [hrec, hout, hacc, ← h.order, append_assoc]
  bound := by
    rw [hout, length_append]
    exact lt_of_le_of_ne h.bound hfull

lemma marked_retain {now : ℕ} (hnow : now ≠ 0) : (s.retain d now).Marked := by
  refine iff_of_true ?_ (by simp [retain])
  show (if s.deliveryBackpressureSince = 0 then now else s.deliveryBackpressureSince) ≠ 0
  split
  · exact hnow
  · assumption

section

variable (h : s.Kept)
include h

/-- A call of `deliver_private_owned`. -/
lemma Kept.delivered (update : U) (direct : Option D) (answer : TrySend) (now : ℕ) :
    (s.step (.deliver update direct answer now)).Kept ∧
      (now ≠ 0 → s.Marked → (s.step (.deliver update direct answer now)).Marked) := by
  simp only [step, deliverPrivateOwned]
  cases s.target direct with
  | error e => exact ⟨h, fun _ hm => hm⟩
  | ok target =>
    dsimp only
    split_ifs with hfull hempty
    · exact ⟨{ h with  }, fun _ hm => hm⟩
    · cases answer with
      | ok =>
        refine ⟨⟨?_, h.bound⟩, fun _ hm => hm⟩
        show (s.received ++ _) ++ s.outbox = s.accepted ++ _
        rw [← h.order, isEmpty_iff.1 hempty, append_nil, append_nil]
      | full | disconnected =>
        exact ⟨h.retained hfull rfl rfl rfl, fun hnow _ => marked_retain hnow⟩
    · exact ⟨h.retained hfull rfl rfl rfl, fun hnow _ => marked_retain hnow⟩

/-- The attempt of `service_one`. -/
lemma Kept.serviced {answer : TrySend} :
    (s.serviceOutbox answer).2.Kept ∧ (s.Marked → (s.serviceOutbox answer).2.Marked) := by
  unfold serviceOutbox
  split
  · next d outbox hout =>
    obtain ⟨horder, hbound⟩ := h
    rw [hout] at horder hbound
    refine ⟨⟨?_, (Nat.le_succ _).trans hbound⟩, fun hm => ?_⟩
    · rw [← horder]
      exact append_assoc _ [d] outbox
    · -- the mark was set, and is cleared with the last update
      have hset : s.deliveryBackpressureSince ≠ 0 := hm.2 (by simp [hout])
      cases outbox with
      | nil => simp [Marked]
      | cons => simpa [Marked] using hset
  · exact ⟨h, id⟩

lemma Kept.called (call : Call D U) :
    (s.step call).Kept ∧ (call.Clocked → s.Marked → (s.step call).Marked) := by
  cases call with
  | deliver update direct answer now => exact h.delivered update direct answer now
  | service answer command =>
    obtain ⟨hkept, hmark⟩ := h.serviced
    cases command with
    | none => exact ⟨hkept, fun _ => hmark⟩
    | some command => exact ⟨{ hkept with  }, fun _ => hmark⟩

/-! ## Runs -/

lemma Kept.ran {calls : List (Call D U)} : (s.run calls).Kept ∧
      ((∀ call ∈ calls, call.Clocked) → s.Marked → (s.run calls).Marked) := by
  induction calls generalizing s with
  | nil => exact ⟨h, fun _ hm => hm⟩
  | cons call calls ih =>
    obtain ⟨hkept, hmark⟩ := h.called call
    obtain ⟨hrun, hmarks⟩ := ih hkept
    refine ⟨hrun, fun hclock hm => hmarks (fun c hc => hclock c (.tail _ hc)) ?_⟩
    exact hmark (hclock call (.head _)) hm

/-- Turns in which the destinations take what they are offered empty the outbox. -/
lemma received_of_drained :
    (s.run (replicate s.outbox.length (.service .ok none))).received = s.accepted := by
  generalize hout : s.outbox = outbox
  induction outbox generalizing s with
  | nil =>
    rw [← h.order, hout, append_nil]
    rfl
  | cons d outbox ih =>
    have hnext := (h.called (.service .ok none)).1
    have hstep : (s.step (.service .ok none)).outbox = outbox ∧
        (s.step (.service .ok none)).accepted = s.accepted := by
      simp [step, serviceOne, serviceOutbox, hout]
    have hrest := ih hnext hstep.1
    rw [hstep.2] at hrest
    exact hrest

end

/-- After every sequence of calls, whatever the destinations answer: each destination has received
the updates that were accepted for it, in order and once, up to those that are retained, and it
receives the rest in the next turns in which the destinations take them; an update that finds the
outbox full is refused with an error; and while the clock does not read zero, the mark is set
exactly as long as anything is retained, and then the account is recovering. -/
theorem private_delivery_exactly_once [DecidableEq D] (rootSink : Option D)
    (delivery : RecoveryDeliveryState) (calls : List (Call D U)) :
    let s := run { rootSink, delivery } calls
    let drained := s.run (replicate s.outbox.length (.service .ok none))
    (∀ d, s.received.filter (·.target.destination = d) ++
      s.outbox.filter (·.target.destination = d) =
      s.accepted.filter (·.target.destination = d)) ∧ drained.received = s.accepted ∧
    s.outbox.length ≤ privateDeliveryOutboxCapacity ∧
    (s.outbox.length = privateDeliveryOutboxCapacity → ∀ update direct answer now,
      (s.deliverPrivateOwned update direct answer now).1.isOk = false ∧
      (s.step (.deliver update direct answer now)).outbox = s.outbox) ∧
    ((∀ call ∈ calls, call.Clocked) → (s.deliveryBackpressureSince ≠ 0 ↔ s.outbox ≠ []) ∧
      (s.outbox ≠ [] → ∀ recoveringState, s.isRecovering recoveringState = true)) := by
  intro s drained
  obtain ⟨hkept, hmarks⟩ := Kept.ran (s := { rootSink, delivery }) ⟨rfl, Nat.zero_le _⟩
  refine ⟨fun d => ?_, received_of_drained hkept, hkept.bound, fun hfull update direct answer now =>
    ?_,
    fun hclock => ?_⟩
  · rw [← filter_append, hkept.order]
  · simp only [step, deliverPrivateOwned]
    cases s.target direct with
    | error e => exact ⟨rfl, rfl⟩
    | ok target =>
      dsimp only
      rw [if_pos hfull]
      exact ⟨rfl, rfl⟩
  · have hmark : s.Marked := hmarks hclock (iff_of_false (by simp) (by simp))
    exact ⟨hmark, fun hne recoveringState => decide_eq_true (.inr (hmark.2 hne))⟩

/-- The second update is not taken and the third waits behind it, although it goes to another
destination. A turn offers the second again in vain, the next one delivers it. -/
def retainedCalls : List (Call ℕ ℕ) :=
  [.deliver 1 none .ok 10, .deliver 2 none .full 11, .deliver 3 (some 7) .ok 12,
    .service .full none, .service .ok none]

theorem private_delivery_exactly_once_retained :
    let s := run { rootSink := some 0 } retainedCalls
    s.received.map (·.update) = [1, 2] ∧ s.outbox.map (·.update) = [3] ∧
      (s.run [.service .ok none]).received = s.accepted ∧ ∀ word, s.isRecovering word = true := by
  intro s
  obtain ⟨-, hdrained, -, -, hmark⟩ := private_delivery_exactly_once (some 0) {} retainedCalls
  have hclocked : ∀ call ∈ retainedCalls, call.Clocked := by
    simp [retainedCalls, Call.Clocked]
  exact ⟨by decide, by decide, hdrained, (hmark hclocked).2 (by decide)⟩

end RecoveryDeliveryOwner

end HexAgent.Exchange
