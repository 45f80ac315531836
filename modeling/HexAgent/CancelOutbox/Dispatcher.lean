import HexAgent.Admission.Model
import Mathlib.Data.Finset.Basic
import Mathlib.Data.List.Nodup

/-!
# The cancel outbox of an account

The execution dispatcher hands cancel commands to the owners of the cancel connections. A lane takes
one command at a time. What no lane can take waits in the outbox, in order, and a repeated cancel of
an order that still waits, or that is on a lane and unanswered, is dropped in favour of the first
(`sendPolyOwnerLossless`).

The dispatcher is one thread. Each owner is another, and acts between any two accesses of the
dispatcher to the flags of a lane; which actions these are is an input (`owners`). The health of the
lanes is an input as well (`turns`): it decides in which order a command tries them. A free lane has
no command and its owner waits, so that the compare-exchange and the send that follows it are one
access.

Commands of other roles use other lanes and are left out, as are counters other than those of the
outbox, latencies and diagnostics.
-/

namespace HexAgent.CancelOutbox

open HexAgent.Admission

/-! ## Commands and lanes -/

/-- Commands of the cancel lanes. -/
inductive PolyConnectionCommand
  | cancel (owner : ℕ) (instanceId clientOrderId : String) (timestampNs : ℕ)
  | probeHttp (excludedSlot : Option ℕ)
  | fallback
  | refreshTransport
  deriving DecidableEq

/-- Exact identity of a cancel. -/
structure CancelKey where
  owner : ℕ
  iid : String
  coid : String
  deriving DecidableEq

namespace PolyConnectionCommand

def isCancel : PolyConnectionCommand → Bool
  | .cancel .. => true
  | _ => false

/-- `cancel_key`. A cancel with an oversize identity has none. -/
def cancelKey : PolyConnectionCommand → Option CancelKey
  | .cancel owner instanceId clientOrderId _ =>
    if 64 < instanceId.utf8ByteSize ∨ 128 < clientOrderId.utf8ByteSize then none
    else some ⟨owner, instanceId, clientOrderId⟩
  | _ => none

/-- The command may not use a lane. -/
def excludes (command : PolyConnectionCommand) (slot : ℕ) : Bool :=
  match command with
  | .probeHttp excludedSlot => excludedSlot = some slot
  | _ => false

end PolyConnectionCommand

/-- What the owner of a lane does. -/
inductive OwnerStage
  | idle
  | working (command : PolyConnectionCommand)
  /-- The reply is built and the flag is cleared. -/
  | answered (command : PolyConnectionCommand)
  /-- The reply is sent. -/
  | replied
  deriving DecidableEq

/-- A reply is built, and then it is sent. -/
inductive ReplyStage
  | built (command : PolyConnectionCommand)
  | sent (command : PolyConnectionCommand)
  deriving DecidableEq

def polyCancelOwnerQueueCapacity : ℕ := 256

structure PolyConnectionLane where
  slot : ℕ
  occupied : Bool := false
  cancelReplyPending : Bool := false
  queue : List PolyConnectionCommand := []
  receiverAlive : Bool := true
  owner : OwnerStage := .idle
  deriving DecidableEq

inductive OwnerAction
  | receive
  | answer
  | reply
  | release
  | close
  deriving DecidableEq

namespace PolyConnectionLane

variable (lane : PolyConnectionLane)

def trySendSlot (command : PolyConnectionCommand) : Bool × PolyConnectionLane :=
  if lane.occupied then (false, lane)
  else
    let lane := { lane with occupied := true, cancelReplyPending := command.isCancel }
    if lane.receiverAlive ∧ lane.queue.length < polyCancelOwnerQueueCapacity then
      (true, { lane with queue := lane.queue ++ [command] })
    else (false, { lane with cancelReplyPending := false, occupied := false })

def release : PolyConnectionLane :=
  { lane with cancelReplyPending := false, occupied := false, owner := .idle }

/-- One action of the owner, if it is possible, and what becomes of a reply in it. -/
def act : OwnerAction → PolyConnectionLane × Option ReplyStage
  | .receive =>
    match lane.receiverAlive, lane.owner, lane.queue with
    | true, .idle, command :: queue =>
      ({ lane with owner := .working command, queue := queue }, none)
    | _, _, _ => (lane, none)
  | .answer =>
    match lane.owner with
    | .working command =>
      if command.isCancel then
        ({ lane with owner := .answered command, cancelReplyPending := false },
          some (.built command))
      else (lane, none)
    | _ => (lane, none)
  | .reply =>
    match lane.owner with
    | .answered command => ({ lane with owner := .replied }, some (.sent command))
    | _ => (lane, none)
  | .release =>
    match lane.owner with
    | .replied => (lane.release, none)
    | .working command => if command.isCancel then (lane, none) else (lane.release, none)
    | _ => (lane, none)
  | .close => ({ lane with receiverAlive := false }, none)

end PolyConnectionLane

/-! ## The dispatcher -/

/-- What happens to commands. -/
inductive OutboxEvent
  | accepted (command : PolyConnectionCommand)
  | coalesced (command : PolyConnectionCommand)
  | rejected (command : PolyConnectionCommand)
  | handed (lane : ℕ) (command : PolyConnectionCommand)
  | reply (lane : ℕ) (stage : ReplyStage)
  deriving DecidableEq

/-- The health of the lanes at one attempt to send: the lanes whose transport is to be refreshed,
and the admission that ranks them. -/
structure HealthTurn where
  resets : List ℕ := []
  health : Option AccountExecutionAdmission := none
  now : ℕ := 0

def polyCancelOutboxCapacity : ℕ := 4096

structure PolyAccountConnectionRoutes where
  cancel : List PolyConnectionLane
  cancelRr : ℕ := 0
  cancelOutbox : List PolyConnectionCommand := []
  cancelOutboxKeys : Finset CancelKey := ∅
  cancelLaneKeys : List (Option CancelKey)
  coalesced : ℕ := 0
  overflow : ℕ := 0
  /-- What the owners do before each of the next accesses. -/
  owners : List (List (ℕ × OwnerAction))
  /-- The health of the lanes at each of the next attempts. -/
  turns : List HealthTurn
  /-- What has happened so far. Nothing reads it. -/
  log : List OutboxEvent := []

def cancelProbationWaitNs : ℕ := 30000000000

/-- A cancel lane that is to be tried again: the one isolated longest. -/
def cancelProbationSlot (health : AccountExecutionAdmission) (now : ℕ) : Option ℕ :=
  if health.cancel.any fun lane =>
      !lane.reservedCancel && health.isFresh now lane && lane.cancelReady && lane.verified then
    let candidates := health.cancel.zipIdx.filter fun (lane, _) =>
      !lane.reservedCancel && lane.businessFailed && health.isFresh now lane &&
        lane.cancelProbeEligible now &&
        decide (saturatingAdd 64 lane.failureEligibleAfterNs cancelProbationWaitNs ≤ now)
    (candidates.foldl (fun (best : Option (LaneState × ℕ)) lane =>
      match best with
      | none => some lane
      | some b =>
        if b.1.failureEligibleAfterNs ≤ lane.1.failureEligibleAfterNs then some b
        else some lane) none).map (·.2)
  else none

def cancelLaneRank (health : AccountExecutionAdmission) (slot now : ℕ) : ℕ :=
  match health.cancel[slot]? with
  | none => 2
  | some lane =>
    if health.isFresh now lane && lane.cancelReady && lane.verified then 0
    else if cancelProbationSlot health now = some slot then 0
    else if health.isFresh now lane && lane.cancelProbeEligible now then 1
    else 2

namespace PolyAccountConnectionRoutes

variable (r : PolyAccountConnectionRoutes)

/-- One action of an owner. -/
def act (action : ℕ × OwnerAction) : PolyAccountConnectionRoutes :=
  match r.cancel[action.1]? with
  | none => r
  | some lane =>
    let (lane, reply) := lane.act action.2
    { r with
      cancel := r.cancel.set action.1 lane
      log := r.log ++ (reply.map (.reply action.1)).toList }

/-- The owners act before the next access. -/
def await : PolyAccountConnectionRoutes :=
  (r.owners.headD []).foldl act { r with owners := r.owners.tail }

/-- `try_send_slot` on a lane. -/
def trySendSlot (index : ℕ) (command : PolyConnectionCommand) :
    Bool × PolyAccountConnectionRoutes :=
  let r := r.await
  match r.cancel[index]? with
  | none => (false, r)
  | some lane =>
    let (sent, lane) := lane.trySendSlot command
    (sent, { r with cancel := r.cancel.set index lane })

/-- `refresh_health_if_needed`: a free lane whose transport is to be refreshed gets the
command for it. -/
def refreshHealth (resets : List ℕ) : PolyAccountConnectionRoutes :=
  resets.foldl (fun r index =>
    let r := r.await
    if (r.cancel[index]?).any (!·.occupied) then (r.trySendSlot index .refreshTransport).2
    else r) r

/-- The lanes that a command tries, in order. -/
def candidates (turn : HealthTurn) (command : PolyConnectionCommand) : List ℕ :=
  let lanes := r.cancel.length
  let rotation := (List.range lanes).map fun offset => (r.cancelRr % lanes + offset) % lanes
  let slotOf (index : ℕ) : ℕ := ((r.cancel[index]?).map (·.slot)).getD 0
  let passes := if turn.health.isSome then 3 else 1
  (List.range passes).flatMap fun rank => rotation.filter fun index =>
    turn.health.all (fun health => cancelLaneRank health (slotOf index) turn.now = rank) &&
      !command.excludes (slotOf index)

/-- The first of the lanes that takes the command. -/
def tryLanes (command : PolyConnectionCommand) :
    List ℕ → PolyAccountConnectionRoutes → Bool × PolyAccountConnectionRoutes
  | [], r => (false, r)
  | index :: rest, r =>
    let (sent, r) := r.trySendSlot index command
    if sent then
      (true, { r with
        cancelRr := index + 1
        cancelLaneKeys := r.cancelLaneKeys.set index command.cancelKey
        log := r.log ++ [.handed index command] })
    else tryLanes command rest r

variable (command : PolyConnectionCommand)

/-- `try_send_poly_owner`, for the cancel role. -/
def trySendPolyOwner : Bool × PolyAccountConnectionRoutes :=
  let turn := r.turns.headD {}
  let r := { r with turns := r.turns.tail }.refreshHealth turn.resets
  tryLanes command (r.candidates turn command) r

/-- The loop of `flush_poly_cancel_outbox`, over the commands in the outbox. -/
def flushFrom : List PolyConnectionCommand → PolyAccountConnectionRoutes →
    PolyAccountConnectionRoutes
  | [], r => { r with cancelOutbox := [] }
  | command :: rest, r =>
    let (sent, r) := { r with cancelOutbox := rest }.trySendPolyOwner command
    if sent then
      flushFrom rest { r with
        cancelOutboxKeys := command.cancelKey.elim r.cancelOutboxKeys r.cancelOutboxKeys.erase }
    else { r with cancelOutbox := command :: rest }

def flushPolyCancelOutbox : PolyAccountConnectionRoutes :=
  r.flushFrom r.cancelOutbox

/-- The command of a key is on a lane and unanswered. Both flags are loaded, one after the other. -/
def onLane (key : CancelKey) :
    List (Option CancelKey × ℕ) → PolyAccountConnectionRoutes → Bool × PolyAccountConnectionRoutes
  | [], r => (false, r)
  | (pending, index) :: rest, r =>
    if pending = some key then
      let r := r.await
      if (r.cancel[index]?).any (·.occupied) then
        let r := r.await
        if (r.cancel[index]?).any (·.cancelReplyPending) then (true, r) else onLane key rest r
      else onLane key rest r
    else onLane key rest r

/-- The cancel repeats one that waits or is unanswered. -/
def isRepeated : Bool × PolyAccountConnectionRoutes :=
  match command.cancelKey with
  | none => (false, r)
  | some key =>
    if key ∈ r.cancelOutboxKeys then (true, r)
    else onLane key (r.cancelLaneKeys.take r.cancel.length).zipIdx r

/-- `send_poly_owner_lossless`, for the cancel role. -/
def sendPolyOwnerLossless : Except PolyConnectionCommand Unit × PolyAccountConnectionRoutes :=
  let (repeated, r) := r.isRepeated command
  if repeated then
    (.ok (), { r with coalesced := r.coalesced + 1, log := r.log ++ [.coalesced command] })
  else
    let r := r.flushPolyCancelOutbox
    let (sent, r) := if r.cancelOutbox.isEmpty then r.trySendPolyOwner command else (false, r)
    if sent then (.ok (), { r with log := r.log ++ [.accepted command] })
    else if polyCancelOutboxCapacity ≤ r.cancelOutbox.length then
      (.error command, { r with overflow := r.overflow + 1, log := r.log ++ [.rejected command] })
    else
      (.ok (), { r with
        cancelOutboxKeys := command.cancelKey.elim r.cancelOutboxKeys (insert · r.cancelOutboxKeys)
        cancelOutbox := r.cancelOutbox ++ [command]
        log := r.log ++ [.accepted command] })

/-- The ordinary outbox in `drain_poly_cancel_outbox_for_shutdown`. The send waits for room, and
fails when the owner is gone. -/
def drainFrom : List PolyConnectionCommand → PolyAccountConnectionRoutes →
    PolyAccountConnectionRoutes
  | [], r => { r with cancelOutbox := [] }
  | command :: rest, r =>
    let index := r.cancelRr % max r.cancel.length 1
    match r.cancel[index]? with
    | none => { r with cancelOutbox := command :: rest }
    | some lane =>
      if lane.receiverAlive then
        drainFrom rest { r with
          cancel := r.cancel.set index { lane with queue := lane.queue ++ [command] }
          cancelRr := r.cancelRr + 1
          cancelOutboxKeys := command.cancelKey.elim r.cancelOutboxKeys r.cancelOutboxKeys.erase
          log := r.log ++ [.handed index command] }
      else { r with cancelOutbox := command :: rest }

def drainPolyCancelOutboxForShutdown : PolyAccountConnectionRoutes :=
  r.drainFrom r.cancelOutbox

/-- Routes with a lane for each slot. -/
def new (slots : List ℕ) (owners : List (List (ℕ × OwnerAction))) (turns : List HealthTurn) :
    PolyAccountConnectionRoutes where
  cancel := slots.map fun slot => { slot := slot }
  cancelLaneKeys := slots.map fun _ => none
  owners := owners
  turns := turns

end PolyAccountConnectionRoutes

/-- Calls of the dispatcher, and actions of the owners between them. -/
inductive Call
  | send (command : PolyConnectionCommand)
  | flush
  | refreshHealth (resets : List ℕ)
  | owner (lane : ℕ) (action : OwnerAction)

def PolyAccountConnectionRoutes.call (r : PolyAccountConnectionRoutes) :
    Call → PolyAccountConnectionRoutes
  | .send command => (r.sendPolyOwnerLossless command).2
  | .flush => r.flushPolyCancelOutbox
  | .refreshHealth resets => r.refreshHealth resets
  | .owner lane action => r.act (lane, action)

def PolyAccountConnectionRoutes.run (r : PolyAccountConnectionRoutes) (calls : List Call) :
    PolyAccountConnectionRoutes :=
  calls.foldl call r

end HexAgent.CancelOutbox
