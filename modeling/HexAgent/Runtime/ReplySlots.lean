import Mathlib.Data.List.Basic

/-!
# Reply slots

A connection worker owns a `Pool` of completion slots. `checkout` takes a slot to which nobody else
has a reference, empties its one-value queue and hands out a sender and a receiver. The sender
pushes one value, or the disconnected value when it is dropped unused; the receiver polls.

A push reserves the queue's cell with one atomic exchange and publishes with one store, a pop takes
it and releases it in the same way; `Slot.step` is one of these, or an endpoint coming or going. The
steps on all slots are interleaved in any order, and a step that its party cannot take changes
nothing. A slot whose reference counts are one is out of everybody's reach, so a checkout of it is
one step; which free slot the scan finds is left open. The queue's own endpoints live in the slot,
so it is never disconnected. Metadata is only counted, and the wake is left out.

Every checkout sees only its own value: its events are the offer of one value and then at most the
receipt of that value (`own_reply_only`).
-/

namespace HexAgent.Runtime.ReplySlots

variable {T : Type}

/-- A value with the number of the checkout whose sender pushed it. -/
structure Message (T : Type) where
  checkout : ℕ
  value : T

/-- The only cell of the queue, as its stamp and the two cursors show it. A `taken` message is not
yet moved out. -/
inductive Cell (T : Type)
  | vacant
  | reserved
  | full (message : Message T)
  | taken (message : Message T)

/-- Where a sender is: it may still be used, it pushes a value (`none` for the disconnected value,
when it is dropped), or only its reference to the slot is left. -/
inductive Sending (T : Type)
  | unused
  | pushing (value : Option T)
  | publishing (value : Option T)
  | finished

/-- The sender is used or dropped, its push fails, the receiver gets a message. -/
inductive Event (T : Type)
  | offered (value : Option T)
  | refused
  | received (message : Message T)

/-- A slot with the endpoints that live, each with the number of its checkout. -/
structure Slot (T : Type) where
  cell : Cell T := .vacant
  senders : List (ℕ × Sending T) := []
  /-- Whether the receiver is about to move a message out. -/
  receivers : List (ℕ × Bool) := []
  /-- References to the metadata beside the slot's own. -/
  readers : ℕ := 0
  checkouts : ℕ := 0
  /-- What has happened, with the number of the endpoint to which it happened. -/
  events : List (ℕ × Event T) := []

/-- The endpoints act by the number of their checkout. -/
inductive Action (T : Type)
  | checkout
  /-- `try_send`, or `drop` without a value. -/
  | offer (checkout : ℕ) (value : Option T)
  | reserve (checkout : ℕ)
  | publish (checkout : ℕ)
  | releaseSender (checkout : ℕ)
  | tryRecv (checkout : ℕ)
  | take (checkout : ℕ)
  | releaseReceiver (checkout : ℕ)
  | cloneMetadata
  | releaseMetadata

namespace Slot

variable (s : Slot T)

/-- Both reference counts are one. -/
def free : Bool :=
  1 + s.senders.length + s.receivers.length = 1 && 1 + s.readers = 1

/-- `while slot.rx.try_recv().is_ok() {}`. -/
def drain : Cell T → Cell T
  | .full _ => .vacant
  | cell => cell

/-- The sender of a checkout moves on. -/
def setSender (n : ℕ) (sending : Sending T) : Slot T :=
  { s with senders := s.senders.map fun e => if e.1 = n then (n, sending) else e }

/-- The receiver of a checkout moves on. -/
def setReceiver (n : ℕ) (taking : Bool) : Slot T :=
  { s with receivers := s.receivers.map fun e => if e.1 = n then (n, taking) else e }

def note (n : ℕ) (event : Event T) : Slot T := { s with events := s.events ++ [(n, event)] }

/-- What has happened to the endpoints of a checkout. -/
def eventsOf (n : ℕ) : List (Event T) := (s.events.filter (·.1 = n)).map (·.2)

def step (disconnected : T) : Action T → Slot T
  | .checkout =>
    if s.free then
      { s with
        cell := drain s.cell
        senders := (s.checkouts + 1, .unused) :: s.senders
        receivers := (s.checkouts + 1, false) :: s.receivers
        readers := s.readers + 1
        checkouts := s.checkouts + 1 }
    else s
  | .offer n value =>
    match s.senders.lookup n with
    | some .unused => (s.setSender n (.pushing value)).note n (.offered value)
    | _ => s
  | .reserve n =>
    match s.senders.lookup n, s.cell with
    | some (.pushing value), .vacant => { s.setSender n (.publishing value) with cell := .reserved }
    | some (.pushing _), _ => (s.setSender n .finished).note n .refused
    | _, _ => s
  | .publish n =>
    match s.senders.lookup n with
    | some (.publishing value) =>
      { s.setSender n .finished with cell := .full ⟨n, value.getD disconnected⟩ }
    | _ => s
  | .releaseSender n =>
    match s.senders.lookup n with
    | some .finished => { s with senders := s.senders.filter (·.1 ≠ n) }
    | _ => s
  | .tryRecv n =>
    match s.receivers.lookup n, s.cell with
    | some false, .full m => { s.setReceiver n true with cell := .taken m }
    | _, _ => s
  | .take n =>
    match s.receivers.lookup n, s.cell with
    | some true, .taken m =>
      ({ s.setReceiver n false with cell := .vacant } : Slot T).note n (.received m)
    | _, _ => s
  | .releaseReceiver n =>
    match s.receivers.lookup n with
    | some false => { s with receivers := s.receivers.filter (·.1 ≠ n) }
    | _ => s
  | .cloneMetadata => if s.readers = 0 then s else { s with readers := s.readers + 1 }
  | .releaseMetadata => { s with readers := s.readers - 1 }

end Slot

abbrev Pool (T : Type) := List (Slot T)

namespace Pool

def new (capacity : ℕ) : Pool T := List.replicate capacity {}

/-- One step on the slot of this number. -/
def step (disconnected : T) (p : Pool T) (a : ℕ × Action T) : Pool T :=
  p.modify a.1 (·.step disconnected a.2)

end Pool

/-! ## The events of one checkout -/

/-- One value is offered, then at most that value is received, from the sender of the same
checkout. -/
def Proper (d : T) (checkout : ℕ) (events : List (Event T)) : Prop :=
  ∃ value, events <+: [.offered value, .received ⟨checkout, value.getD d⟩]

/-- The events as long as cell and sender are in this state. -/
def Agrees (d : T) (checkout : ℕ) (events : List (Event T)) : Cell T → Option (Sending T) → Prop
  | .vacant, some .unused => events = []
  | .vacant, some (.pushing value) | .reserved, some (.publishing value) =>
    events = [.offered value]
  | .full m, some .finished | .full m, none | .taken m, some .finished | .taken m, none =>
    ∃ value, m = ⟨checkout, value.getD d⟩ ∧ events = [.offered value]
  | .vacant, some .finished | .vacant, none => Proper d checkout events
  | _, _ => False

variable {d : T} {checkout : ℕ} {events : List (Event T)} {cell : Cell T}
  {sender : Option (Sending T)} {m : Message T}

lemma Agrees.proper (h : Agrees d checkout events cell sender) : Proper d checkout events := by
  unfold Agrees at h
  split at h
  case h_1 => exact ⟨none, h ▸ List.nil_prefix⟩
  case h_2 value | h_3 value => exact ⟨value, h ▸ List.prefix_append [_] _⟩
  case h_8 | h_9 => exact h
  case h_10 => exact h.elim
  all_goals
    obtain ⟨value, -, rfl⟩ := h
    exact ⟨value, List.prefix_append [_] _⟩

/-- The receiver takes a message, and then has received it. -/
lemma Agrees.take (h : Agrees d checkout events (.full m) sender) :
    Agrees d checkout events (.taken m) sender := by
  rcases sender with _ | _ | _ | _ | _ <;> exact h

lemma Agrees.receive (h : Agrees d checkout events (.taken m) sender) :
    Agrees d checkout (events ++ [.received m]) .vacant sender := by
  rcases sender with _ | _ | _ | _ | _
  case none | some.finished =>
    obtain ⟨value, rfl, rfl⟩ := h
    exact ⟨value, List.prefix_rfl⟩
  all_goals exact h.elim

/-! ## One slot -/

/-- A live endpoint of a slot belongs to the last checkout, as a slot is only reused when it is
free. Earlier checkouts are closed, the events of the last one agree with the state, and a message
is taken exactly while the receiver moves it out. -/
structure Slot.Ok (d : T) (s : Slot T) (sender : Option (Sending T)) (receiver : Option Bool) :
    Prop where
  senders : s.senders = sender.toList.map (s.checkouts, ·)
  receivers : s.receivers = receiver.toList.map (s.checkouts, ·)
  known : ∀ e ∈ s.events, e.1 ≤ s.checkouts
  closed : ∀ n, n ≠ s.checkouts → Proper d n (s.eventsOf n)
  agrees : Agrees d s.checkouts (s.eventsOf s.checkouts) s.cell sender
  taking : receiver = some true ↔ ∃ m, s.cell = .taken m

/-- An endpoint that acts is the one of the last checkout. -/
lemma eq_of_lookup {α : Type} {k n : ℕ} {x : Option α} {a : α}
    (h : (x.toList.map (k, ·)).lookup n = some a) : n = k ∧ x = some a := by
  cases x with
  | none => cases h
  | some b =>
    simp only [Option.toList_some, List.map_cons, List.map_nil, List.lookup_cons] at h
    split at h
    · next heq => exact ⟨eq_of_beq heq, h⟩
    · cases h

namespace Slot.Ok

variable {s : Slot T} {receiver : Option Bool} (h : s.Ok d sender receiver)
include h

/-- The endpoints of the last checkout move on, with at most one new event. -/
lemma advance {cell : Cell T} {sender' : Option (Sending T)} {receiver' : Option Bool}
    (new : List (Event T))
    (hagrees : Agrees d s.checkouts (s.eventsOf s.checkouts ++ new) cell sender')
    (htaking : receiver' = some true ↔ ∃ m, cell = .taken m) :
    Ok d { s with
      cell := cell
      senders := sender'.toList.map (s.checkouts, ·)
      receivers := receiver'.toList.map (s.checkouts, ·)
      events := s.events ++ new.map (s.checkouts, ·) } sender' receiver' := by
  refine ⟨rfl, rfl, List.forall_mem_append.2 ⟨h.known, ?_⟩, fun n hn => ?_, ?_, htaking⟩
  · exact List.forall_mem_map.2 fun _ _ => Nat.le_refl _
  · have hof := h.closed n hn
    simpa [eventsOf, List.filter_map, Function.comp_def, hn.symm] using hof
  · simpa [eventsOf, List.filter_map, Function.comp_def] using hagrees

lemma exists_checkout : ∃ sender' receiver', (s.step d .checkout).Ok d sender' receiver' := by
  dsimp only [Slot.step]
  split
  · next hfree =>
    simp only [free, Bool.and_eq_true, decide_eq_true_eq] at hfree
    have hsenders : s.senders = [] := List.length_eq_zero_iff.1 (by omega)
    have hreceivers : s.receivers = [] := List.length_eq_zero_iff.1 (by omega)
    have hagrees := h.agrees
    obtain rfl : sender = none := by simpa [hsenders] using h.senders
    obtain rfl : receiver = none := by simpa [hreceivers] using h.receivers
    have hvacant : drain s.cell = .vacant := by
      cases hc : s.cell with
      | reserved =>
        rw [hc] at hagrees
        exact hagrees.elim
      | taken m => cases h.taking.2 ⟨m, hc⟩
      | _ => rfl
    -- No event has the new number yet.
    have hfresh : s.eventsOf (s.checkouts + 1) = [] := by
      unfold eventsOf
      rw [List.map_eq_nil_iff, List.filter_eq_nil_iff]
      intro e he heq
      have := h.known e he
      simp only [decide_eq_true_eq] at heq
      omega
    refine ⟨some .unused, some false, ?_, ?_, fun e he => Nat.le_succ_of_le (h.known e he),
      fun n hn => ?_, ?_, ?_⟩
    · rw [hsenders]
      rfl
    · rw [hreceivers]
      rfl
    · change Proper d n (s.eventsOf n)
      by_cases hlast : n = s.checkouts
      · rw [hlast]
        exact hagrees.proper
      · exact h.closed n hlast
    · rw [hvacant]
      exact hfresh
    · rw [hvacant]
      exact ⟨nofun, nofun⟩
  · exact ⟨_, _, h⟩

lemma sender_of_lookup {n : ℕ} {sending : Sending T} (hn : s.senders.lookup n = some sending) :
    n = s.checkouts ∧ sender = some sending :=
  eq_of_lookup (h.senders ▸ hn)

lemma receiver_of_lookup {n : ℕ} {taking : Bool} (hn : s.receivers.lookup n = some taking) :
    n = s.checkouts ∧ receiver = some taking :=
  eq_of_lookup (h.receivers ▸ hn)

lemma setSender_eq {old : Sending T} (hs : sender = some old) (new : Sending T) :
    (s.setSender s.checkouts new).senders = (some new).toList.map (s.checkouts, ·) := by
  simp [setSender, h.senders, hs]

lemma setReceiver_eq {old : Bool} (hr : receiver = some old) (new : Bool) :
    (s.setReceiver s.checkouts new).receivers = (some new).toList.map (s.checkouts, ·) := by
  simp [setReceiver, h.receivers, hr]

/-- A step of the sender that is logged. -/
lemma sender_logs {old new : Sending T} {cell : Cell T} {e : Event T} (hs : sender = some old)
    (hagrees : Agrees d s.checkouts (s.eventsOf s.checkouts ++ [e]) cell (some new))
    (htaking : receiver = some true ↔ ∃ m, cell = .taken m) :
    (({ s.setSender s.checkouts new with cell := cell } : Slot T).note s.checkouts e).Ok d
      (some new) receiver := by
  have hnext := h.advance [e] hagrees htaking
  rw [← h.setSender_eq hs, ← h.receivers] at hnext
  exact hnext

/-- One that is not. -/
lemma sender_moves {old new : Sending T} {cell : Cell T} (hs : sender = some old)
    (hagrees : Agrees d s.checkouts (s.eventsOf s.checkouts) cell (some new))
    (htaking : receiver = some true ↔ ∃ m, cell = .taken m) :
    Ok d { s.setSender s.checkouts new with cell := cell } (some new) receiver := by
  have hnext := h.advance [] (by rwa [List.append_nil]) htaking
  rw [← h.setSender_eq hs, ← h.receivers, List.map_nil, List.append_nil] at hnext
  exact hnext

lemma exists_offer (n : ℕ) (value : Option T) :
    ∃ sender', (s.step d (.offer n value)).Ok d sender' receiver := by
  dsimp only [Slot.step]
  split
  · next hn =>
    obtain ⟨rfl, rfl⟩ := h.sender_of_lookup hn
    have hagrees := h.agrees
    have hempty : s.cell = .vacant ∧ s.eventsOf s.checkouts = [] := by
      cases hc : s.cell <;> rw [hc] at hagrees
      case vacant => exact ⟨rfl, hagrees⟩
      all_goals exact hagrees.elim
    have hnext : Agrees d s.checkouts (s.eventsOf s.checkouts ++ [.offered value]) s.cell
        (some (.pushing value)) := by
      rw [hempty.1, hempty.2]
      rfl
    exact ⟨_, h.sender_logs rfl hnext h.taking⟩
  · exact ⟨_, h⟩

lemma exists_reserve (n : ℕ) : ∃ sender', (s.step d (.reserve n)).Ok d sender' receiver := by
  have hagrees := h.agrees
  have htaking := h.taking
  dsimp only [Slot.step]
  split
  · next value hn hc =>
    obtain ⟨rfl, rfl⟩ := h.sender_of_lookup hn
    rw [hc] at hagrees htaking
    exact ⟨_, h.sender_moves rfl hagrees (htaking.trans ⟨nofun, nofun⟩)⟩
  · -- No push finds the cell in use.
    next value hn hc =>
    obtain ⟨rfl, rfl⟩ := h.sender_of_lookup hn
    cases hcell : s.cell <;> rw [hcell] at hagrees
    case vacant => exact absurd hcell hc
    all_goals exact hagrees.elim
  · exact ⟨_, h⟩

lemma exists_publish (n : ℕ) : ∃ sender', (s.step d (.publish n)).Ok d sender' receiver := by
  have hagrees := h.agrees
  have htaking := h.taking
  dsimp only [Slot.step]
  split
  · next value hn =>
    obtain ⟨rfl, rfl⟩ := h.sender_of_lookup hn
    cases hc : s.cell <;> rw [hc] at hagrees htaking
    case reserved =>
      exact ⟨_, h.sender_moves rfl ⟨value, rfl, hagrees⟩ (htaking.trans ⟨nofun, nofun⟩)⟩
    all_goals exact hagrees.elim
  · exact ⟨_, h⟩

lemma exists_releaseSender (n : ℕ) :
    ∃ sender', (s.step d (.releaseSender n)).Ok d sender' receiver := by
  dsimp only [Slot.step]
  split
  · next hn =>
    obtain ⟨rfl, rfl⟩ := h.sender_of_lookup hn
    have hagrees : Agrees d s.checkouts (s.eventsOf s.checkouts) s.cell none := by
      have hold := h.agrees
      cases hc : s.cell <;> rw [hc] at hold <;> exact hold
    exact ⟨none, { h with senders := by simp [h.senders], agrees := hagrees }⟩
  · exact ⟨_, h⟩

lemma exists_tryRecv (n : ℕ) : ∃ receiver', (s.step d (.tryRecv n)).Ok d sender receiver' := by
  have hagrees := h.agrees
  dsimp only [Slot.step]
  split
  · next m hn hc =>
    obtain ⟨rfl, rfl⟩ := h.receiver_of_lookup hn
    rw [hc] at hagrees
    exact ⟨some true, { h with
      receivers := h.setReceiver_eq rfl true
      agrees := hagrees.take
      taking := ⟨fun _ => ⟨m, rfl⟩, fun _ => rfl⟩ }⟩
  · exact ⟨_, h⟩

lemma exists_take (n : ℕ) : ∃ receiver', (s.step d (.take n)).Ok d sender receiver' := by
  have hagrees := h.agrees
  dsimp only [Slot.step]
  split
  · next m hn hc =>
    obtain ⟨rfl, rfl⟩ := h.receiver_of_lookup hn
    rw [hc] at hagrees
    have htaking : some false = some true ↔ ∃ m, (.vacant : Cell T) = .taken m := by simp
    have hnext := h.advance [.received m] hagrees.receive htaking
    rw [← h.setReceiver_eq rfl, ← h.senders] at hnext
    exact ⟨_, hnext⟩
  · exact ⟨_, h⟩

lemma exists_releaseReceiver (n : ℕ) :
    ∃ receiver', (s.step d (.releaseReceiver n)).Ok d sender receiver' := by
  have htaking := h.taking
  dsimp only [Slot.step]
  split
  · next hn =>
    obtain ⟨rfl, rfl⟩ := h.receiver_of_lookup hn
    exact ⟨none, { h with
      receivers := by simp [h.receivers]
      taking := ⟨nofun, fun hm => nomatch htaking.2 hm⟩ }⟩
  · exact ⟨_, h⟩

lemma exists_step (a : Action T) : ∃ sender' receiver', (s.step d a).Ok d sender' receiver' := by
  cases a with
  | checkout => exact h.exists_checkout
  | offer n value => exact (h.exists_offer n value).imp fun _ hnext => ⟨_, hnext⟩
  | reserve n => exact (h.exists_reserve n).imp fun _ hnext => ⟨_, hnext⟩
  | publish n => exact (h.exists_publish n).imp fun _ hnext => ⟨_, hnext⟩
  | releaseSender n => exact (h.exists_releaseSender n).imp fun _ hnext => ⟨_, hnext⟩
  | tryRecv n => exact ⟨_, h.exists_tryRecv n⟩
  | take n => exact ⟨_, h.exists_take n⟩
  | releaseReceiver n => exact ⟨_, h.exists_releaseReceiver n⟩
  | cloneMetadata =>
    dsimp only [Slot.step]
    split
    · exact ⟨_, _, h⟩
    · exact ⟨_, _, { h with }⟩
  | releaseMetadata => exact ⟨_, _, { h with }⟩

end Slot.Ok

/-- In every interleaving, what happens to the endpoints of a checkout is the offer of one value by
its sender and then at most the receipt of that value, from this sender, by its receiver; no push
finds the slot full. -/
theorem own_reply_only (d : T) (capacity : ℕ) (actions : List (ℕ × Action T)) {s : Slot T}
    (hs : s ∈ actions.foldl (Pool.step d) (Pool.new capacity)) (checkout : ℕ) :
    Proper d checkout (s.eventsOf checkout) ∧ .refused ∉ s.eventsOf checkout := by
  have hok : ∀ s ∈ actions.foldl (Pool.step d) (Pool.new capacity),
      ∃ sender receiver, Slot.Ok d s sender receiver := by
    refine List.foldlRecOn (motive := fun pool => ∀ s ∈ pool, ∃ sender receiver,
      Slot.Ok d s sender receiver) actions _ (fun s hs => ?_) fun pool hpool a _ s hs => ?_
    · obtain rfl := List.eq_of_mem_replicate hs
      exact ⟨none, none, rfl, rfl, nofun, fun _ _ => ⟨none, List.nil_prefix⟩,
        ⟨none, List.nil_prefix⟩, nofun, nofun⟩
    · obtain ⟨i, hget⟩ := List.getElem?_of_mem hs
      rw [Pool.step, List.getElem?_modify] at hget
      obtain ⟨t, ht, rfl⟩ := Option.map_eq_some_iff.1 hget
      obtain ⟨sender, receiver, htok⟩ := hpool t (List.mem_of_getElem? ht)
      split
      · exact htok.exists_step a.2
      · exact ⟨_, _, htok⟩
  obtain ⟨sender, receiver, hslot⟩ := hok s hs
  have hproper : Proper d checkout (s.eventsOf checkout) := by
    by_cases hlast : checkout = s.checkouts
    · rw [hlast]
      exact hslot.agrees.proper
    · exact hslot.closed checkout hlast
  obtain ⟨value, hpre⟩ := hproper
  exact ⟨⟨value, hpre⟩, fun hmem => by simpa using hpre.subset hmem⟩

/-- The reply of the first checkout is left in the slot; the sender of the second is dropped
unused. -/
theorem own_reply_only_second :
    let actions := [.checkout, .offer 1 (some 3), .reserve 1, .publish 1, .releaseSender 1,
      .releaseReceiver 1, .releaseMetadata, .checkout, .offer 2 none, .reserve 2, .publish 2,
      .tryRecv 2, .take 2]
    let pool := (actions.map (0, ·)).foldl (Pool.step 7) (Pool.new 1)
    ∃ s ∈ pool, s.eventsOf 1 = [.offered (some 3)] ∧
      s.eventsOf 2 = [.offered none, .received ⟨2, 7⟩] ∧ Proper 7 2 (s.eventsOf 2) := by
  intro actions pool
  have hmem : _ ∈ pool := .head _
  exact ⟨_, hmem, rfl, rfl, (own_reply_only 7 1 _ hmem 2).1⟩

end HexAgent.Runtime.ReplySlots
