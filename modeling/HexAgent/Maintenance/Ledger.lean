import HexAgent.Account.Lifecycle
import HexAgent.ToMathlib.AListRows
import Mathlib.Data.Finmap

/-!
# Maintenance operations of a shared account

A split turns cash into both outcome tokens of a condition, a merge turns both tokens back into
cash. Such an operation is journalled: it is reserved with an allocation over the instances,
submitted to the chain, and then confirmed or failed. While it is open, its allocation is covered by
counters that order lifecycle cannot release.

The economic state of an instance exists twice. The cold ledger is what the calls compute with; the
shard is what the other threads read. A call on the economic state first loads the ledger from the
shard, for cash and for the tokens of the operation, and publishes the differences at the end. A
difference of at most `EPS` is not published, and a published value is clamped at zero.

Cash and tokens are handled alike, so both are an `Asset` here. Timestamps, the persistence jobs and
the recomputed residuals are left out; what the rest of the account answers is an `Environment`.
-/

namespace HexAgent.Maintenance

open Account

/-! ## Operations -/

/-- Cash (`none`), or an outcome token. -/
abbrev Asset := Option String

inductive MaintenanceOperationKind
  | split
  | merge
  deriving DecidableEq

inductive MaintenanceOperationStatus
  | reserved
  | submitted
  | uncertain
  | confirmed
  | failed
  deriving DecidableEq

/-- The operation still holds its allocation. -/
def MaintenanceOperationStatus.isOpen : MaintenanceOperationStatus → Bool
  | .reserved | .submitted | .uncertain => true
  | .confirmed | .failed => false

/-- What an operation is asked to do. -/
structure MaintenanceIntent where
  kind : MaintenanceOperationKind
  conditionId : String
  upTokenId : String
  downTokenId : String
  allocations : AList fun _ : String => ℚ

namespace MaintenanceIntent

variable (intent : MaintenanceIntent)

/-- Assets that the operation uses up. -/
def takes : List Asset :=
  match intent.kind with
  | .split => [none]
  | .merge => [some intent.upTokenId, some intent.downTokenId]

/-- Assets that the operation produces. -/
def gives : List Asset :=
  match intent.kind with
  | .split => [some intent.upTokenId, some intent.downTokenId]
  | .merge => [none]

/-- Assets whose balances a call on the operation loads and publishes. -/
def scope : List Asset := [none, some intent.upTokenId, some intent.downTokenId]

/-- Sum of the allocation. -/
def total : ℚ := intent.allocations.sumBy fun _ amount => amount

/-- Equal intents; allocations are compared as maps. -/
def Same (other : MaintenanceIntent) : Prop :=
  intent.kind = other.kind ∧ intent.conditionId = other.conditionId ∧
    intent.upTokenId = other.upTokenId ∧ intent.downTokenId = other.downTokenId ∧
    intent.allocations.toFinmap = other.allocations.toFinmap

instance (other : MaintenanceIntent) : Decidable (intent.Same other) :=
  inferInstanceAs (Decidable (_ ∧ _))

end MaintenanceIntent

/-- `MaintenanceOperation`; of a wallet submission only its presence is read here. -/
structure MaintenanceOperation extends MaintenanceIntent where
  txId : Option String := none
  hasWalletSubmission : Bool := false
  status : MaintenanceOperationStatus := .reserved
  detail : Option String := none

/-! ## The economic state -/

/-- Balances and maintenance coverage of an instance; a missing entry of a map reads as zero. -/
structure Book where
  balance : Asset → ℚ
  reserved : Asset → ℚ

/-- An instance: its cold ledger, its shard, and what its orders reserve. -/
structure Instance where
  ledger : Book
  shard : Book
  orderReserved : Asset → ℚ

/-- `total_reserved_cash`, `total_reserved_position`. -/
def Instance.totalReserved (i : Instance) (asset : Asset) : ℚ :=
  i.orderReserved asset + i.ledger.reserved asset

/-- The part of the account that maintenance operations work on. -/
structure MaintenanceState where
  instances : AList fun _ : String => Instance
  physical : Asset → ℚ
  maintenanceOps : AList fun _ : String => MaintenanceOperation

/-- How the account is run: the tolerances, and whether the lifecycle lane is bound. -/
structure Config where
  tol : Tolerance
  lifecycleLaneBound : Bool

/-- What the rest of the account answers to a call. -/
structure Environment where
  /-- `ensure_admission_persistence`. -/
  admissionPersistence : Except String Unit := .ok ()
  seeded : Bool := true
  /-- The account is uncertain for another reason than a maintenance operation. -/
  uncertain : Bool := false
  /-- `instance_pending_order_ids_requiring_metadata`, sorted. -/
  pendingAudits : String → List String := fun _ => []

/-- Load the ledger from the shard for the assets of a call. -/
def Instance.load (scope : List Asset) (i : Instance) : Instance :=
  let pick (shard ledger : Asset → ℚ) : Asset → ℚ := fun asset =>
    if asset ∈ scope then shard asset else ledger asset
  { i with ledger :=
      ⟨pick i.shard.balance i.ledger.balance, pick i.shard.reserved i.ledger.reserved⟩ }

/-- Publish the changes of the ledger to the shard. -/
def Instance.publish (tol : Tolerance) (scope : List Asset) (i : Instance) : Instance :=
  let store (shard ledger : Asset → ℚ) : Asset → ℚ := fun asset =>
    if asset ∈ scope ∧ tol.eps < |ledger asset - shard asset| then
      AtomicF64.add (shard asset) (ledger asset - shard asset)
    else shard asset
  { i with shard :=
      ⟨store i.shard.balance i.ledger.balance, store i.shard.reserved i.ledger.reserved⟩ }

namespace MaintenanceState

variable (cfg : Config) (s : MaintenanceState)

def lockEconomicState (scope : List Asset) : MaintenanceState :=
  { s with instances := s.instances.mapRows (Instance.load scope) }

/-- The end of a call on the economic state. -/
def dropEconomicState (scope : List Asset) : MaintenanceState :=
  { s with instances := s.instances.mapRows (Instance.publish cfg.tol scope) }

/-- `lock_state` and the end of its guard, for a call that leaves the balances alone. Before the
lifecycle lane is bound, the ledgers are copied from the shards and back. -/
def lockState : MaintenanceState :=
  if cfg.lifecycleLaneBound then s
  else { s with instances := s.instances.mapRows fun i => { i with ledger := i.shard } }

/-- Change the ledgers of the instances of an allocation. -/
def allocate (allocations : AList fun _ : String => ℚ) (f : ℚ → Instance → Instance) :
    MaintenanceState :=
  { s with instances := allocations.entries.foldl (fun m e => m.modifyRow e.1 (f e.2)) s.instances }

/-- Write one operation. -/
def setOp (operationId : String) (op : MaintenanceOperation) : MaintenanceState :=
  { s with maintenanceOps := s.maintenanceOps.insert operationId op }

/-- `state.uncertain` after the lock recomputed it. -/
def isUncertain (env : Environment) : Bool :=
  env.uncertain || s.maintenanceOps.entries.any fun e =>
    e.2.status = .submitted || e.2.status = .uncertain

end MaintenanceState

/-- `InsufficientPhysicalCash` or `InsufficientPhysicalPosition`. -/
def insufficientPhysical (required available : ℚ) : Asset → ReservationError
  | none => .insufficientPhysicalCash required available
  | some token => .insufficientPhysicalPosition token required available

/-- `InsufficientVirtualCash` or `InsufficientVirtualPosition`. -/
def insufficientVirtual (required available : ℚ) : Asset → ReservationError
  | none => .insufficientVirtualCash required available
  | some token => .insufficientVirtualPosition token required available

/-! ## Changes of a ledger -/

namespace Instance

/-- Replace the coverage in the ledger. -/
def setReserved (i : Instance) (reserved : Asset → ℚ) : Instance :=
  { i with ledger := ⟨i.ledger.balance, reserved⟩ }

/-- Replace the balances in the ledger. -/
def setBalance (i : Instance) (balance : Asset → ℚ) : Instance :=
  { i with ledger := ⟨balance, i.ledger.reserved⟩ }

variable (amount : ℚ) (i : Instance) (asset : Asset)

/-- Add an amount to the coverage of one asset. -/
def cover : Instance :=
  i.setReserved (Function.update i.ledger.reserved asset (i.ledger.reserved asset + amount))

/-- Take an amount off the coverage of one asset, down to zero. -/
def uncover : Instance :=
  i.setReserved
    (Function.update i.ledger.reserved asset (max (i.ledger.reserved asset - amount) 0))

/-- Add an amount to the balance of one asset. -/
def credit : Instance :=
  i.setBalance (Function.update i.ledger.balance asset (i.ledger.balance asset + amount))

end Instance

namespace MaintenanceIntent

variable (intent : MaintenanceIntent)

/-- Cover the allocated amount of an instance. -/
def reserve (amount : ℚ) (i : Instance) : Instance := intent.takes.foldl (Instance.cover amount) i

/-- Give the coverage of an instance back. -/
def release (amount : ℚ) (i : Instance) : Instance := intent.takes.foldl (Instance.uncover amount) i

/-- Exchange the allocated amount of an instance. -/
def exchange (amount : ℚ) (i : Instance) : Instance :=
  intent.gives.foldl (Instance.credit amount) (intent.takes.foldl (Instance.credit (-amount)) i)

/-- Exchange the total in the wallet. -/
def exchangePhysical (physical : Asset → ℚ) : Asset → ℚ :=
  let add (amount : ℚ) (physical : Asset → ℚ) (asset : Asset) : Asset → ℚ :=
    Function.update physical asset (physical asset + amount)
  intent.gives.foldl (add intent.total) (intent.takes.foldl (add (-intent.total)) physical)

end MaintenanceIntent

/-! ## Calls -/

section Calls

variable (cfg : Config) (s : MaintenanceState) (operationId : String)

/-- `reject_allocation_audit_blockers`: the least instance that is blocked. -/
def allocationAuditBlocker (env : Environment) (allocations : AList fun _ : String => ℚ) :
    Option ReservationError :=
  let blocked := allocations.keys.filter fun id => env.pendingAudits id ≠ []
  let least := blocked.foldl (fun best id => if best.any (· ≤ id) then best else some id) none
  least.map fun id => .accountInstanceBlocked id (env.pendingAudits id)

/-- The coverage checks of a reservation. -/
def reserveError (intent : MaintenanceIntent) : Option ReservationError :=
  intent.takes.findSome? fun asset =>
    let available := max (s.physical asset - s.instances.sumBy fun _ i => i.totalReserved asset) 0
    if available + cfg.tol.eps < intent.total then
      some (insufficientPhysical intent.total available asset)
    else intent.allocations.entries.findSome? fun e =>
      match s.instances.lookup e.1 with
      | none => some (.unknownInstance e.1)
      | some i =>
        let available := max (i.ledger.balance asset - i.totalReserved asset) 0
        if available + cfg.tol.eps < e.2 then some (insufficientVirtual e.2 available asset)
        else none

/-- A reservation, between the lock and its end. -/
def admitOperation (env : Environment) (intent : MaintenanceIntent) :
    MaintenanceState × Except ReservationError Unit :=
  match s.maintenanceOps.lookup operationId with
  | some existing =>
    if existing.toMaintenanceIntent.Same intent then (s, .ok ())
    else (s, .error (.invalidOrder
      s!"maintenance operation id `{operationId}` was reused with different intent"))
  | none =>
    if !env.seeded then (s, .error .accountNotSeeded)
    else if s.isUncertain env then (s, .error .accountUncertain)
    else match allocationAuditBlocker env intent.allocations with
      | some error => (s, .error error)
      | none =>
        match reserveError cfg s intent with
        | some error => (s, .error error)
        | none => ((s.allocate intent.allocations intent.reserve).setOp operationId
            { toMaintenanceIntent := intent }, .ok ())

/-- The fields of a reservation are unusable. -/
def invalidIntent (intent : MaintenanceIntent) : Bool :=
  operationId = "" || intent.conditionId = "" || intent.upTokenId = "" ||
    intent.downTokenId = "" || intent.allocations.entries.isEmpty ||
    intent.allocations.entries.any fun e => e.2 ≤ 0

/-- `reserve_maintenance_operation_inner`, up to the persistence flush. -/
def reserveMaintenanceOperationInner (env : Environment) (intent : MaintenanceIntent) :
    MaintenanceState × Except ReservationError Unit :=
  match env.admissionPersistence with
  | .error reason => (s, .error (.persistenceUnavailable reason))
  | .ok () =>
    if invalidIntent operationId intent then
      (s, .error (.invalidOrder "invalid maintenance operation identity/tokens/allocations"))
    else
      let (s, result) :=
        admitOperation cfg (s.lockEconomicState intent.scope) operationId env intent
      (s.dropEconomicState cfg intent.scope, result)

def markMaintenanceOperationSubmitted (txId : String) : MaintenanceState × Except String Unit :=
  if txId = "" then (s, .error "maintenance submission returned an empty tx id")
  else
    let s := s.lockState cfg
    match s.maintenanceOps.lookup operationId with
    | none => (s, .error s!"unknown maintenance operation `{operationId}`")
    | some op =>
      if op.status = .confirmed then (s, .ok ())
      else if op.status = .failed then
        (s, .error s!"maintenance operation `{operationId}` already failed")
      else if op.txId.any (· ≠ txId) then
        let stored := op.txId.getD ""
        (s, .error (s!"maintenance operation `{operationId}` tx id conflict: " ++
          s!"stored={stored} incoming={txId}"))
      else (s.setOp operationId { op with txId := some txId, status := .submitted }, .ok ())

def markMaintenanceOperationUncertain (detail : String) : MaintenanceState :=
  let s := s.lockState cfg
  match s.maintenanceOps.lookup operationId with
  | none => s
  | some op =>
    if !op.status.isOpen || (op.status = .uncertain && op.detail = some detail) then s
    else s.setOp operationId { op with status := .uncertain, detail := some detail }

def failMaintenanceOperation (detail : String) : MaintenanceState :=
  match s.maintenanceOps.lookup operationId with
  | none => s
  | some op =>
    let s := s.lockEconomicState op.scope
    let s := if !op.status.isOpen then s
      else (s.allocate op.allocations op.release).setOp operationId
        { op with status := .failed, detail := some detail }
    s.dropEconomicState cfg op.scope

/-- The coverage checks of a confirmation. -/
def confirmError (op : MaintenanceOperation) : Option ReservationError :=
  let physical := op.takes.findSome? fun asset =>
    if s.physical asset + cfg.tol.eps < op.total then
      some (insufficientPhysical op.total (s.physical asset) asset)
    else none
  physical.or (op.allocations.entries.findSome? fun e =>
    match s.instances.lookup e.1 with
    | none => some (.unknownInstance e.1)
    | some i => op.takes.findSome? fun asset =>
        let available := min (i.ledger.balance asset) (i.ledger.reserved asset)
        if available + cfg.tol.eps < e.2 then some (insufficientVirtual e.2 available asset)
        else none)

/-- A confirmation, between the lock and its end. -/
def settleOperation (op : MaintenanceOperation) : MaintenanceState × Except ReservationError Unit :=
  if op.status = .confirmed then (s, .ok ())
  else if op.status = .failed then
    (s, .error (.invalidOrder s!"maintenance operation `{operationId}` already failed"))
  else if op.txId.getD "" = "" then
    (s, .error (.invalidOrder s!"maintenance operation `{operationId}` has no persisted tx id"))
  else match confirmError cfg s op with
    | some error => (s, .error error)
    | none =>
      let s := { s with physical := op.exchangePhysical s.physical }
      let s := s.allocate op.allocations fun amount i => op.release amount (op.exchange amount i)
      (s.setOp operationId { op with status := .confirmed, detail := none }, .ok ())

def confirmMaintenanceOperation : MaintenanceState × Except ReservationError Unit :=
  match s.maintenanceOps.lookup operationId with
  | none => (s, .error (.invalidOrder s!"unknown maintenance operation `{operationId}`"))
  | some op =>
    let (s, result) := settleOperation cfg (s.lockEconomicState op.scope) operationId op
    (s.dropEconomicState cfg op.scope, result)

end Calls

/-! ## Admission -/

/-- How the request for a reservation reaches the account owner and what its flush returns. -/
inductive Admission
  /-- The caller is the owner. -/
  | owner (flush : Except String Unit)
  /-- The owner answered in time; the caller flushes and, if that fails, asks the owner to fail the
  operation, which may find the queue full. -/
  | dispatched (flush : Except String Unit) (undoQueued : Bool)
  /-- The owner answered too late. The request stays queued, with an abort behind it. -/
  | late (error : String)
  /-- The request was not queued. -/
  | refused (error : String)

/-- `AbortMaintenanceAdmission`: the operation was never submitted. -/
def abortMaintenanceAdmission (cfg : Config) (s : MaintenanceState) (operationId detail : String) :
    MaintenanceState :=
  match s.maintenanceOps.lookup operationId with
  | none => s
  | some op =>
    if op.status = .reserved ∧ op.txId = none ∧ !op.hasWalletSubmission then
      failMaintenanceOperation cfg s operationId detail
    else s

/-- `reserve_maintenance_operation`. The owner flushes only what it has newly written; a caller
flushes after every positive answer. -/
def reserveMaintenanceOperation (cfg : Config) (s : MaintenanceState) (env : Environment)
    (admission : Admission) (operationId : String) (intent : MaintenanceIntent) :
    MaintenanceState × Except ReservationError Unit :=
  let known := (s.maintenanceOps.lookup operationId).isSome
  let (admitted, result) := reserveMaintenanceOperationInner cfg s operationId env intent
  let undone (reason : String) : MaintenanceState :=
    failMaintenanceOperation cfg admitted operationId s!"reservation persistence: {reason}"
  match admission, result with
  | .refused error, _ => (s, .error (.invalidOrder error))
  | .late error, _ =>
    (abortMaintenanceAdmission cfg admitted operationId error, .error (.invalidOrder error))
  | .owner (.error reason), .ok () =>
    if known then (admitted, .ok ()) else (undone reason, .error (.persistenceUnavailable reason))
  | .dispatched (.error reason) undoQueued, .ok () =>
    (if undoQueued then undone reason else admitted, .error (.persistenceUnavailable reason))
  | _, result => (admitted, result)

lemma lookup_failMaintenanceOperation {cfg : Config} {s : MaintenanceState}
    {operationId detail : String} {op : MaintenanceOperation}
    (hop : s.maintenanceOps.lookup operationId = some op) (hopen : op.status.isOpen = true) :
    (failMaintenanceOperation cfg s operationId detail).maintenanceOps.lookup operationId =
      some { op with status := .failed, detail := some detail } := by
  unfold failMaintenanceOperation
  rw [hop]
  dsimp only
  rw [hopen]
  exact AList.lookup_insert _

/-- How the account owner replies to another request (`request_account_owner`). -/
inductive OwnerReply
  /-- The caller is the owner, or the owner answered in time. -/
  | answered
  /-- The owner answered too late. The command stays queued and is run. -/
  | late (error : String)
  /-- The request was not queued. -/
  | refused (error : String)

/-- What a request comes to, given the state and the result of its run. -/
def OwnerReply.deliver {ε : Type} (reply : OwnerReply) (wrap : String → ε) (s : MaintenanceState)
    (run : MaintenanceState × Except ε Unit) : MaintenanceState × Except ε Unit :=
  match reply with
  | .answered => run
  | .late error => (run.1, .error (wrap error))
  | .refused error => (s, .error (wrap error))

/-- A call on the journal. It stands in a run where the owner takes it; a mark or a failure that
finds the queue full is none. -/
inductive MaintenanceCall
  | reserve (env : Environment) (admission : Admission) (operationId : String)
      (intent : MaintenanceIntent)
  | submitted (reply : OwnerReply) (operationId txId : String)
  | uncertain (operationId detail : String)
  | fail (operationId detail : String)
  | confirm (reply : OwnerReply) (operationId : String)

/-- Error of a call. -/
inductive MaintenanceError
  | reservation (error : ReservationError)
  | text (error : String)

/-- The state after a call, and its result. -/
def MaintenanceState.call (cfg : Config) (s : MaintenanceState) :
    MaintenanceCall → MaintenanceState × Except MaintenanceError Unit
  | .reserve env admission operationId intent =>
    let (s, result) := reserveMaintenanceOperation cfg s env admission operationId intent
    (s, result.mapError .reservation)
  | .submitted reply operationId txId =>
    let (s, result) :=
      reply.deliver id s (markMaintenanceOperationSubmitted cfg s operationId txId)
    (s, result.mapError .text)
  | .uncertain operationId detail =>
    (markMaintenanceOperationUncertain cfg s operationId detail, .ok ())
  | .fail operationId detail => (failMaintenanceOperation cfg s operationId detail, .ok ())
  | .confirm reply operationId =>
    let (s, result) :=
      reply.deliver .invalidOrder s (confirmMaintenanceOperation cfg s operationId)
    (s, result.mapError .reservation)

end HexAgent.Maintenance
