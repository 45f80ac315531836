import Mathlib.Data.Fintype.Card
import HexAgent.ToMathlib.Trace

/-!
# Connection slots of a role pool

A `RolePool` has a fixed number of connection slots. A request holds a slot by a permit, and a slot
whose connection failed is quarantined until a repair has installed a replacement. Three flags of a
slot say so (`busy`, `quarantined`, and `availableToken`), and free slots have a token in the pool's
bounded lane: receiving the token gives the right to make the slot busy.

All this is done by threads without a lock. `Task` is a thread at work, with the atomic operation it
does next: one load, store or compare-exchange on a flag, or one operation on the lane. `Task.step`
does it. `PoolAction` starts operations and lets any thread do its next step, so that the runs of
`PoolState` are the sequentially consistent interleavings.

`acquire_as` and `try_acquire_inner` try as often as there are slots; `acquire_as` then waits for
tokens; `try_acquire_slot` puts tokens of other slots back. `claim_rebuild`, the repairs and
`release_quarantine` follow the health handle of a client, which has the generation it was picked
at; any such handle may report a failure at any time. Clients, traces and the counters of the pool
are left out.
-/

namespace HexAgent.Http1Pool

/-! ## The pool -/

/-- The flags of a connection slot. -/
structure Slot where
  busy : Bool := false
  availableToken : Bool := true
  quarantined : Bool := false
  transportFailures : ℕ := 0
  generation : ℕ := 0
  lastRebuildNs : ℕ := 0
  deriving DecidableEq

/-- The slots of a pool and its lane of tokens. -/
structure RolePool (n : ℕ) where
  slots : Fin n → Slot
  lane : List (Fin n)

variable {n : ℕ}

def RolePool.new (n : ℕ) : RolePool n where
  slots := fun _ => {}
  lane := List.finRange n

/-- Change one slot. -/
def RolePool.modify (p : RolePool n) (slot : Fin n) (f : Slot → Slot) : RolePool n :=
  { p with slots := Function.update p.slots slot (f (p.slots slot)) }

lemma RolePool.modify_slots (p : RolePool n) (slot x : Fin n) (f : Slot → Slot) :
    (p.modify slot f).slots x = if x = slot then f (p.slots x) else p.slots x := by
  unfold modify
  dsimp only
  rw [Function.update_apply]
  split
  · next h => rw [h]
  · rfl

/-! ## Threads -/

/-- What a thread that looks for a token is about. -/
inductive Caller (n : ℕ)
  /-- `try_acquire_inner`, with the tries that are left. -/
  | tryAcquire (left : ℕ)
  /-- `acquire_as`, with the tries that are left before it waits. -/
  | acquire (left : Option ℕ)
  | tryAcquireSlot (slot : Fin n) (left : ℕ)
  deriving DecidableEq

/-- Arguments of `claim_rebuild`, with the generation of the handle and the time that is read. -/
structure ClaimArgs where
  generation : ℕ
  threshold : ℕ
  cooldownNs : ℕ
  nowNs : ℕ
  deriving DecidableEq

/-- The operations of `publish_slot_token`, in order. -/
inductive PublishStage
  | loadBusy
  | loadQuarantined
  | setToken
  | send
  /-- The lane was full. -/
  | undo
  deriving DecidableEq

/-- A thread, by the atomic operation that it does next. -/
inductive Task (n : ℕ)
  /-- Receive a token. -/
  | poll (caller : Caller n)
  /-- `claim_received_slot`: clear the token flag, load the quarantine, take the slot. -/
  | received (slot : Fin n) (caller : Caller n)
  | checkQuarantine (slot : Fin n) (caller : Caller n)
  | takeBusy (slot : Fin n) (caller : Caller n)
  /-- The token of another slot was received: clear its flag, then put it back. -/
  | putBack (slot : Fin n) (caller : Caller n)
  | publish (stage : PublishStage) (slot : Fin n) (caller : Option (Caller n))
  /-- A live permit. -/
  | permit (slot : Fin n)
  /-- A permit that is dropped: clear `busy`, then publish. -/
  | dropping (slot : Fin n)
  /-- `claim_rebuild`: check the generation, count the failure, load and set the time of the last
  rebuild, set the quarantine, check the generation again. -/
  | claimCheck (slot : Fin n) (args : ClaimArgs)
  | claimCount (slot : Fin n) (args : ClaimArgs)
  | claimCooldown (slot : Fin n) (args : ClaimArgs)
  | claimStamp (slot : Fin n) (args : ClaimArgs) (last : ℕ)
  | claimQuarantine (slot : Fin n) (args : ClaimArgs)
  | claimed (slot : Fin n) (args : ClaimArgs)
  /-- A repair that warms a candidate: check the generation at the head of its loop. -/
  | repair (slot : Fin n) (generation : ℕ)
  /-- The replacement is installed: check the generation, clear the failures, raise the
  generation. -/
  | install (slot : Fin n) (generation : ℕ)
  | clearFailures (slot : Fin n)
  | raiseGeneration (slot : Fin n)
  /-- `release_quarantine`: clear the quarantine, then publish. -/
  | release (slot : Fin n)
  | done
  deriving DecidableEq

namespace Task

/-- Where `claim_received_slot` returns nothing. -/
def claimFailed : Caller n → Task n
  | .tryAcquire left => .poll (.tryAcquire left)
  | .acquire left => .poll (.acquire left)
  | .tryAcquireSlot _ _ => .done

/-- Where `publish_slot_token` returns. -/
def published : Option (Caller n) → Task n
  | none => .done
  | some caller => .poll caller

/-- The caller's loop receives from the lane, if it has a try left. -/
def pollLane (p : RolePool n) (caller : Caller n) : Option (RolePool n × Task n) :=
  match caller, p.lane with
  | .tryAcquire 0, _ => some (p, .done)
  | .tryAcquire (_ + 1), [] => some (p, .done)
  | .tryAcquire (left + 1), slot :: lane =>
    some ({ p with lane := lane }, .received slot (.tryAcquire left))
  | .acquire (some 0), _ => some (p, .poll (.acquire none))
  | .acquire (some (_ + 1)), [] => some (p, .poll (.acquire none))
  | .acquire (some (left + 1)), slot :: lane =>
    some ({ p with lane := lane }, .received slot (.acquire (some left)))
  -- A waiting caller is blocked while the lane is empty.
  | .acquire none, [] => none
  | .acquire none, slot :: lane => some ({ p with lane := lane }, .received slot (.acquire none))
  | .tryAcquireSlot _ 0, _ => some (p, .done)
  | .tryAcquireSlot _ (_ + 1), [] => some (p, .done)
  | .tryAcquireSlot wanted (left + 1), slot :: lane =>
    if slot = wanted then
      some ({ p with lane := lane }, .received slot (.tryAcquireSlot wanted left))
    else some ({ p with lane := lane }, .putBack slot (.tryAcquireSlot wanted left))

/-- One operation of `publish_slot_token`. -/
def publishStep (p : RolePool n) (slot : Fin n) (caller : Option (Caller n)) :
    PublishStage → RolePool n × Task n
  | .loadBusy =>
    if (p.slots slot).busy then (p, published caller)
    else (p, .publish .loadQuarantined slot caller)
  | .loadQuarantined =>
    if (p.slots slot).quarantined then (p, published caller)
    else (p, .publish .setToken slot caller)
  | .setToken =>
    if (p.slots slot).availableToken then (p, published caller)
    else (p.modify slot fun s => { s with availableToken := true }, .publish .send slot caller)
  | .send =>
    if p.lane.length < n then ({ p with lane := p.lane ++ [slot] }, published caller)
    else (p, .publish .undo slot caller)
  | .undo => (p.modify slot fun s => { s with availableToken := false }, published caller)

/-- The next atomic operation of a thread. The flag is the outcome of warming a candidate. -/
def step (p : RolePool n) (warmed : Bool) : Task n → Option (RolePool n × Task n)
  | .poll caller => pollLane p caller
  | .received slot caller =>
    some (p.modify slot fun s => { s with availableToken := false }, .checkQuarantine slot caller)
  | .checkQuarantine slot caller =>
    if (p.slots slot).quarantined then some (p, claimFailed caller)
    else some (p, .takeBusy slot caller)
  | .takeBusy slot caller =>
    if (p.slots slot).busy then some (p, claimFailed caller)
    else some (p.modify slot fun s => { s with busy := true }, .permit slot)
  | .putBack slot caller =>
    some (p.modify slot fun s => { s with availableToken := false },
      .publish .loadBusy slot (some caller))
  | .publish stage slot caller => some (publishStep p slot caller stage)
  | .permit _ => none
  | .dropping slot =>
    some (p.modify slot fun s => { s with busy := false }, .publish .loadBusy slot none)
  | .claimCheck slot args =>
    if (p.slots slot).generation = args.generation then some (p, .claimCount slot args)
    else some (p, .done)
  | .claimCount slot args =>
    some (p.modify slot fun s => { s with transportFailures := s.transportFailures + 1 },
      if (p.slots slot).transportFailures + 1 < max args.threshold 1 then .done
      else .claimCooldown slot args)
  | .claimCooldown slot args =>
    let last := (p.slots slot).lastRebuildNs
    if last ≠ 0 ∧ args.nowNs - last < args.cooldownNs then some (p, .done)
    else some (p, .claimStamp slot args last)
  | .claimStamp slot args last =>
    if (p.slots slot).lastRebuildNs = last then
      some (p.modify slot fun s =>
        { s with lastRebuildNs := args.nowNs }, .claimQuarantine slot args)
    else some (p, .claimCooldown slot args)
  | .claimQuarantine slot args =>
    if (p.slots slot).quarantined then some (p, .done)
    else some (p.modify slot fun s => { s with quarantined := true }, .claimed slot args)
  | .claimed slot args =>
    if (p.slots slot).generation = args.generation then some (p, .repair slot args.generation)
    else some (p, .release slot)
  | .repair slot generation =>
    if (p.slots slot).generation ≠ generation then some (p, .done)
    else if warmed then some (p, .install slot generation)
    else some (p, .repair slot generation)
  | .install slot generation =>
    if (p.slots slot).generation = generation then some (p, .clearFailures slot)
    else some (p, .done)
  | .clearFailures slot =>
    some (p.modify slot fun s => { s with transportFailures := 0 }, .raiseGeneration slot)
  | .raiseGeneration slot =>
    some (p.modify slot fun s => { s with generation := s.generation + 1 }, .release slot)
  | .release slot =>
    some (p.modify slot fun s => { s with quarantined := false }, .publish .loadBusy slot none)
  | .done => none

end Task

/-! ## The pool at work -/

/-- A pool with its threads. -/
structure PoolState (n : ℕ) where
  pool : RolePool n
  tasks : List (Task n) := []

/-- What can happen next. -/
inductive PoolAction (n : ℕ)
  | tryAcquire
  | acquire
  | tryAcquireSlot (slot : Fin n)
  | claimRebuild (slot : Fin n) (args : ClaimArgs)
  /-- The holder of a permit drops it. -/
  | drop (task : ℕ)
  /-- A thread does its next operation. -/
  | advance (task : ℕ) (warmed : Bool)

namespace PoolState

/-- One action, if it is possible. -/
def step (s : PoolState n) : PoolAction n → Option (PoolState n)
  | .tryAcquire => some { s with tasks := s.tasks ++ [.poll (.tryAcquire n)] }
  | .acquire => some { s with tasks := s.tasks ++ [.poll (.acquire (some n))] }
  | .tryAcquireSlot slot => some { s with tasks := s.tasks ++ [.poll (.tryAcquireSlot slot n)] }
  | .claimRebuild slot args => some { s with tasks := s.tasks ++ [.claimCheck slot args] }
  | .drop i =>
    match s.tasks[i]? with
    | some (.permit slot) => some { s with tasks := s.tasks.set i (.dropping slot) }
    | _ => none
  | .advance i warmed =>
    match s.tasks[i]? with
    | none => none
    | some task => (task.step s.pool warmed).map fun (pool, next) =>
        { s with pool := pool, tasks := s.tasks.set i next }

/-- The actions in order, if each is possible. -/
def run (s : PoolState n) : List (PoolAction n) → Option (PoolState n)
  | [] => some s
  | a :: actions => (s.step a).bind fun s' => s'.run actions

end PoolState

end HexAgent.Http1Pool
