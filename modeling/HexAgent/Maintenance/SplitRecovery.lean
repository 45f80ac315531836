import HexAgent.Maintenance.ExpiredNonce
import HexAgent.Maintenance.Ledger

/-!
# Recovery of expired split operations

`finalize_expired` fails a maintenance operation, and with that releases its funds, once
`expired_nonce_unused` has proved that its batch cannot be executed. The order to fail the operation
is carried out at once, or it is queued for the owner of the account, or the queue refuses it and
the account is marked uncertain. In any case the caller then waits until it sees the operation
failed, and gives up after a while. It may come back later and order the same again.

Runs interleave the wallet actor that recovers, the owner, and all other calls on the journal.
`issued` and `released` record what has happened: the orders with the replies they were based on,
and the operations that an order found open. Nothing reads them.
-/

namespace HexAgent.Maintenance

open MaintenanceState List MaintenanceOperationStatus Account.Tolerance

/-! ## The system -/

/-- How the order to fail an operation reaches the account. -/
inductive Dispatch
  /-- The caller is the owner, or there is no owner thread. -/
  | direct
  | queued
  | refused
  deriving DecidableEq

/-- An order, with the replies on which it rests. -/
structure Issue where
  operationId : String
  submission : MaintenanceWalletSubmission
  rpc : Rpc

structure RecoveryState where
  ledger : MaintenanceState
  /-- `FailMaintenanceOperation` commands that wait for the owner. -/
  lane : List (String × String) := []
  /-- The operation whose failure the wallet actor waits for. -/
  waiting : Option String := none
  uncertainFast : Bool := false
  admissionFast : Bool := true
  /-- Results of `finalize_expired`, oldest first. -/
  results : List (String × Except String Bool) := []
  issued : List Issue := []
  released : List String := []

inductive RecoveryAction
  /-- `finalize_expired` up to the order. -/
  | finalize (operationId : String) (intent : MaintenanceWalletSubmission) (rpc : Rpc)
      (dispatch : Dispatch)
  /-- The waiting actor looks at the operation; if it has failed, the journal is flushed. -/
  | poll (flush : Except String Unit)
  /-- The wait is over. -/
  | giveUp
  /-- The owner takes a command. -/
  | ownerTurn
  /-- Any other call on the journal. -/
  | call (call : MaintenanceCall)

namespace RecoveryState

/-- The text that goes into the journal. -/
def expiredDetail (intent : MaintenanceWalletSubmission) (proof : UnusedNonceProof) : String :=
  s!"expired unexecuted WALLET nonce={intent.nonce} deadline={intent.deadlineSecs} " ++
    s!"finalized_number={proof.blockNumber} finalized_hash={proof.blockHash} " ++
    s!"finalized_timestamp={proof.timestamp}"

def hasFailed (s : RecoveryState) (operationId : String) : Bool :=
  (s.ledger.maintenanceOps.lookup operationId).any fun op => op.status = .failed

/-- Carry the order out. -/
def fail (cfg : Config) (s : RecoveryState) (operationId detail : String) : RecoveryState :=
  { s with
    ledger := failMaintenanceOperation cfg s.ledger operationId detail
    released :=
      if (s.ledger.maintenanceOps.lookup operationId).any fun op => op.status.isOpen then
        s.released ++ [operationId]
      else s.released }

/-- `fail_maintenance_operation` as the wallet actor calls it. -/
def order (cfg : Config) (s : RecoveryState) (operationId detail : String) :
    Dispatch → RecoveryState
  | .direct => s.fail cfg operationId detail
  | .queued => { s with lane := s.lane ++ [(operationId, detail)] }
  | .refused => { s with uncertainFast := true, admissionFast := false }

/-- `finalize_expired` returns. -/
def finish (s : RecoveryState) (operationId : String) (result : Except String Bool) :
    RecoveryState :=
  { s with waiting := none, results := s.results ++ [(operationId, result)] }

/-- One action, if it is possible. -/
def step (cfg : Config) (keccak256 : String → List UInt8) (s : RecoveryState) :
    RecoveryAction → Option RecoveryState
  | .finalize operationId intent rpc dispatch =>
    if s.waiting.isSome then none
    else
      match expiredNonceUnused keccak256 intent rpc with
      | .error error => some (s.finish operationId (.error error))
      | .ok none => some (s.finish operationId (.ok false))
      | .ok (some proof) =>
        let s : RecoveryState := { s with
          waiting := some operationId
          issued := s.issued ++ [⟨operationId, intent, rpc⟩] }
        some (s.order cfg operationId (expiredDetail intent proof) dispatch)
  | .poll flush =>
    match s.waiting with
    | none => none
    | some operationId =>
      if s.hasFailed operationId then some (s.finish operationId (flush.map fun _ => true))
      else some s
  | .giveUp =>
    match s.waiting with
    | none => none
    | some operationId =>
      if s.hasFailed operationId then none
      else some (s.finish operationId
        (.error "terminal split journal owner acknowledgement timed out"))
  | .ownerTurn =>
    match s.lane with
    | [] => none
    | (operationId, detail) :: lane =>
      let s : RecoveryState := { s with lane := lane }
      some (s.fail cfg operationId detail)
  | .call call => some { s with ledger := (s.ledger.call cfg call).1 }

/-- The actions in order, if each is possible. -/
def run (cfg : Config) (keccak256 : String → List UInt8) (s : RecoveryState) :
    List RecoveryAction → Option RecoveryState
  | [] => some s
  | a :: actions => (s.step cfg keccak256 a).bind fun s' => s'.run cfg keccak256 actions

end RecoveryState

/-! ## Closed operations stay as they are -/

/-- Operations that are confirmed or failed are the same afterwards. -/
def ClosedStays (s s' : MaintenanceState) : Prop :=
  ∀ operationId op, s.maintenanceOps.lookup operationId = some op → op.status.isOpen = false →
    s'.maintenanceOps.lookup operationId = some op

namespace ClosedStays

variable {cfg : Config} {s s' s'' : MaintenanceState} {operationId : String}
  {intent : MaintenanceIntent} {op : MaintenanceOperation} {env : Environment} {detail : String}

lemma of_eq (h : s'.maintenanceOps = s.maintenanceOps) : ClosedStays s s' :=
  fun _ _ hop _ => by rw [h]; exact hop

lemma trans (h : ClosedStays s s') (h' : ClosedStays s' s'') : ClosedStays s s'' :=
  fun id op hop hclosed => h' id op (h id op hop hclosed) hclosed

/-- Only an operation that is open or new is written. -/
lemma of_insert (hops : s'.maintenanceOps = s.maintenanceOps.insert operationId op)
    (hopen : ∀ old ∈ s.maintenanceOps.lookup operationId, old.status.isOpen = true) :
    ClosedStays s s' := by
  intro id old hold hclosed
  rw [hops, AList.lookup_insert_ne]
  · exact hold
  · rintro rfl
    exact Bool.false_ne_true (hclosed.symm.trans (hopen old hold))

lemma lockState : ClosedStays s (s.lockState cfg) := by
  refine of_eq ?_
  unfold MaintenanceState.lockState
  split <;> rfl

lemma fail (detail : String) :
    ClosedStays s (failMaintenanceOperation cfg s operationId detail) := by
  unfold failMaintenanceOperation
  split
  · exact of_eq rfl
  next op hop =>
  split
  · exact of_eq rfl
  next hopen =>
  have hst : op.status.isOpen = true := by simpa using hopen
  exact of_insert rfl (by simp [hop, hst])

lemma admission : ClosedStays s (admitOperation cfg s operationId env intent).1 := by
  unfold admitOperation
  split
  · split <;> exact of_eq rfl
  next hnew =>
  split
  · exact of_eq rfl
  split
  · exact of_eq rfl
  split
  · exact of_eq rfl
  split
  · exact of_eq rfl
  · exact of_insert rfl (by simp [hnew])

lemma reserveInner :
    ClosedStays s (reserveMaintenanceOperationInner cfg s operationId env intent).1 := by
  unfold reserveMaintenanceOperationInner
  split
  · exact of_eq rfl
  · split
    · exact of_eq rfl
    · have hlock : ClosedStays s (s.lockEconomicState intent.scope) := of_eq rfl
      exact hlock.trans (admission.trans (of_eq rfl))

lemma abort : ClosedStays s (abortMaintenanceAdmission cfg s operationId detail) := by
  unfold abortMaintenanceAdmission
  split
  · exact of_eq rfl
  · split
    · exact fail detail
    · exact of_eq rfl

lemma reserve {adm : Admission} :
    ClosedStays s (reserveMaintenanceOperation cfg s env adm operationId intent).1 := by
  unfold reserveMaintenanceOperation
  dsimp only
  split
  · exact of_eq rfl
  · exact reserveInner.trans abort
  · split
    · exact reserveInner
    · exact reserveInner.trans (fail _)
  · split
    · exact reserveInner.trans (fail _)
    · exact reserveInner
  · exact reserveInner

lemma submitted {txId : String} :
    ClosedStays s (markMaintenanceOperationSubmitted cfg s operationId txId).1 := by
  unfold markMaintenanceOperationSubmitted
  split
  · exact of_eq rfl
  dsimp only
  split
  · exact lockState
  next op hop =>
  split
  · exact lockState
  next hconf =>
  split
  · exact lockState
  next hfail =>
  split
  · exact lockState
  · refine lockState.trans (of_insert rfl fun other hne => ?_)
    cases hst : op.status <;> simp_all [isOpen]

lemma uncertain : ClosedStays s (markMaintenanceOperationUncertain cfg s operationId detail) := by
  unfold markMaintenanceOperationUncertain
  dsimp only
  split
  · exact lockState
  next op hop =>
  split
  · exact lockState
  next hopen =>
  simp only [Bool.or_eq_true, not_or, Bool.not_eq_true', Bool.not_eq_false] at hopen
  exact lockState.trans (of_insert rfl (by simp [hop, hopen]))

lemma settle (hop : s.maintenanceOps.lookup operationId = some op) :
    ClosedStays s (settleOperation cfg s operationId op).1 := by
  unfold settleOperation
  split
  · exact of_eq rfl
  next hconf =>
  split
  · exact of_eq rfl
  next hfail =>
  split
  · exact of_eq rfl
  split
  · exact of_eq rfl
  · refine of_insert rfl fun other hne => ?_
    cases hst : op.status <;> simp_all [isOpen]

lemma confirm : ClosedStays s (confirmMaintenanceOperation cfg s operationId).1 := by
  unfold confirmMaintenanceOperation
  split
  · exact of_eq rfl
  next op hop =>
  have hlock : ClosedStays s (s.lockEconomicState op.scope) := of_eq rfl
  have hop' : (s.lockEconomicState op.scope).maintenanceOps.lookup operationId = some op := hop
  exact hlock.trans ((settle hop').trans (of_eq rfl))

lemma deliver {ε : Type} (reply : OwnerReply) (wrap : String → ε)
    {run : MaintenanceState × Except ε Unit} (h : ClosedStays s run.1) :
    ClosedStays s (reply.deliver wrap s run).1 := by
  cases reply with
  | answered => exact h
  | late error => exact h
  | refused error => exact of_eq rfl

/-- No call on the journal changes a closed operation. -/
lemma call (c : MaintenanceCall) : ClosedStays s (s.call cfg c).1 := by
  cases c with
  | reserve env adm operationId intent => exact reserve
  | submitted reply operationId txId => exact deliver reply id submitted
  | uncertain operationId detail => exact uncertain
  | fail operationId detail => exact fail detail
  | confirm reply operationId => exact deliver reply _ confirm

/-- Whatever is called, in whatever order, a closed operation stays as it is. -/
theorem closed_operations_final (cfg : Config) (s : MaintenanceState)
    (calls : List MaintenanceCall) :
    ClosedStays s (calls.foldl (fun s c => (s.call cfg c).1) s) := by
  induction calls generalizing s with
  | nil => exact of_eq rfl
  | cons c calls ih => exact (call c).trans (ih _)

end ClosedStays

/-! ## The record of a run -/

/-- Orders rest on proofs, they concern what is released, and what is released stays closed. -/
structure Recovered (keccak256 : String → List UInt8) (s : RecoveryState) : Prop where
  proved : ∀ issue ∈ s.issued, ∃ proof,
    expiredNonceUnused keccak256 issue.submission issue.rpc = .ok (some proof)
  queued : ∀ command ∈ s.lane, ∃ issue ∈ s.issued, issue.operationId = command.1
  ordered : ∀ id ∈ s.released, ∃ issue ∈ s.issued, issue.operationId = id
  closed : ∀ id ∈ s.released, ∃ op, s.ledger.maintenanceOps.lookup id = some op ∧
    op.status = .failed
  once : s.released.Nodup

namespace Recovered

variable {cfg : Config} {keccak256 : String → List UInt8} {s s' : RecoveryState}

variable (h : Recovered keccak256 s)
include h

/-- The journal moves on. -/
lemma ledger {l : MaintenanceState}
    (hl : ClosedStays s.ledger l) : Recovered keccak256 { s with ledger := l } where
  proved := h.proved
  queued := h.queued
  ordered := h.ordered
  closed := fun id hid => by
    obtain ⟨op, hop, hfail⟩ := h.closed id hid
    exact ⟨op, hl id op hop (by rw [hfail]; rfl), hfail⟩
  once := h.once

/-- An order is carried out: it finds the operation open once at most. -/
lemma fail {operationId : String} (detail : String)
    (hissue : ∃ issue ∈ s.issued, issue.operationId = operationId) :
    Recovered keccak256 (s.fail cfg operationId detail) := by
  have hled := h.ledger (@ClosedStays.fail cfg s.ledger operationId detail)
  unfold RecoveryState.fail
  split
  · next hopen =>
    obtain ⟨op, hop, hst⟩ := (Option.any_eq_true ..).1 hopen
    -- An operation that was released before is closed.
    have hnew : operationId ∉ s.released := by
      intro hmem
      obtain ⟨old, hold, hfail⟩ := h.closed operationId hmem
      rw [hop] at hold
      cases hold
      rw [hfail] at hst
      cases hst
    refine ⟨h.proved, h.queued, forall_mem_append.2 ⟨h.ordered, forall_mem_singleton.2 hissue⟩,
      forall_mem_append.2 ⟨hled.closed, forall_mem_singleton.2
        ⟨_, lookup_failMaintenanceOperation hop hst, rfl⟩⟩, ?_⟩
    exact nodup_append.2 ⟨h.once, nodup_singleton _, fun a ha b hb hab => by
      rw [mem_singleton.1 hb] at hab
      exact hnew (hab ▸ ha)⟩
  · exact hled

lemma step {a : RecoveryAction}
    (hstep : s.step cfg keccak256 a = some s') : Recovered keccak256 s' := by
  cases a with
  | finalize operationId intent rpc dispatch =>
    simp only [RecoveryState.step] at hstep
    split at hstep
    · cases hstep
    split at hstep
    · cases hstep
      exact { h with }
    · cases hstep
      exact { h with }
    next proof hproof =>
    cases hstep
    have hkeep {id : String} (hid : ∃ issue ∈ s.issued, issue.operationId = id) :
        ∃ issue ∈ s.issued ++ [⟨operationId, intent, rpc⟩], issue.operationId = id := by
      obtain ⟨issue, hmem, heq⟩ := hid
      exact ⟨issue, mem_append_left _ hmem, heq⟩
    have hissue : ∃ issue ∈ s.issued ++ [(⟨operationId, intent, rpc⟩ : Issue)],
        issue.operationId = operationId :=
      ⟨_, mem_append_right _ (mem_singleton_self _), rfl⟩
    have hiss : Recovered keccak256 { s with
        waiting := some operationId
        issued := s.issued ++ [⟨operationId, intent, rpc⟩] } :=
      ⟨forall_mem_append.2 ⟨h.proved, forall_mem_singleton.2 ⟨proof, hproof⟩⟩,
        fun cmd hc => hkeep (h.queued cmd hc), fun id hid => hkeep (h.ordered id hid), h.closed,
        h.once⟩
    cases dispatch with
    | direct => exact hiss.fail _ hissue
    | queued =>
      exact { hiss with queued := forall_mem_append.2 ⟨hiss.queued, forall_mem_singleton.2 hissue⟩ }
    | refused =>
      exact { hiss with }
  | poll flush =>
    simp only [RecoveryState.step] at hstep
    split at hstep
    · cases hstep
    · split at hstep <;> cases hstep
      · exact { h with }
      · exact h
  | giveUp =>
    simp only [RecoveryState.step] at hstep
    split at hstep
    · cases hstep
    · split at hstep <;> cases hstep
      exact { h with }
  | ownerTurn =>
    simp only [RecoveryState.step] at hstep
    split at hstep
    · cases hstep
    next operationId detail lane hlane =>
    cases hstep
    have hrest : Recovered keccak256 { s with lane := lane } :=
      { h with queued := fun cmd hc => h.queued cmd (hlane ▸ mem_cons_of_mem _ hc) }
    exact hrest.fail detail (h.queued (operationId, detail) (hlane ▸ mem_cons_self))
  | call c =>
    cases hstep
    exact h.ledger (ClosedStays.call c)

lemma run {acts : List RecoveryAction}
    (hrun : s.run cfg keccak256 acts = some s') : Recovered keccak256 s' := by
  induction acts generalizing s with
  | nil =>
    cases hrun
    exact h
  | cons a acts ih =>
    obtain ⟨s₁, hstep, hrest⟩ := Option.bind_eq_some_iff.1 hrun
    exact ih (h.step hstep) hrest

end Recovered

/-- A proof is only given for batches that are not executed and never can be. Over any run an
operation is released by `finalize_expired` at most once, and only on such a proof for the
submission that was passed with it; it stays failed. -/
theorem expired_nonce_sound (keccak256 : String → List UInt8) :
    (∀ submission rpc proof, expiredNonceUnused keccak256 submission rpc = .ok (some proof) →
      Unexecutable keccak256 rpc submission) ∧
    ∀ (cfg : Config) (ledger : MaintenanceState) (actions : List RecoveryAction)
      (s : RecoveryState), RecoveryState.run cfg keccak256 { ledger := ledger } actions = some s →
      s.released.Nodup ∧ ∀ id ∈ s.released,
        (∃ issue ∈ s.issued, issue.operationId = id ∧
          Unexecutable keccak256 issue.rpc issue.submission) ∧
        ∃ op, s.ledger.maintenanceOps.lookup id = some op ∧ op.status = .failed := by
  refine ⟨fun submission rpc proof h => unexecutable_of_proof h, fun cfg ledger actions s hrun =>
    ?_⟩
  have hstart : Recovered keccak256 { ledger := ledger } :=
    ⟨nofun, nofun, nofun, nofun, nodup_nil⟩
  have hend := hstart.run hrun
  refine ⟨hend.once, fun id hid => ⟨?_, hend.closed id hid⟩⟩
  obtain ⟨issue, hissue, heq⟩ := hend.ordered id hid
  obtain ⟨proof, hproof⟩ := hend.proved issue hissue
  exact ⟨issue, hissue, heq, unexecutable_of_proof hproof⟩

namespace ExpiredSplit

/-! A split of nonce 7 with deadline 100. The finalized block has time 101 and nonce 7. -/

def zeros (n : ℕ) : String := String.ofList (replicate n '0')

def ones (n : ℕ) : String := String.ofList (replicate n '1')

def intent : MaintenanceWalletSubmission where
  signer := "0x" ++ ones 40
  depositWallet := "0x" ++ zeros 40
  nonce := "7"
  bodyHash := ones 64
  deadlineSecs := 100

def header : Json :=
  .obj [("hash", .str ("0x" ++ ones 64)), ("number", .str "0xa"), ("timestamp", .str "0x65")]

/-- Only the two signatures that are read have to be told apart. -/
def keccak256 (signature : String) : List UInt8 :=
  if signature = "owner()" then [0x8d, 0xa5, 0xcb, 0x5b] else [0xaf, 0xfe, 0xd0, 0xe0]

def rpc : Rpc := fun _ request => .ok (.obj [("result", match request with
  | .chainId => .str "0x89"
  | .getBlockByNumber _ => header
  | .call _ data _ =>
    if data = selector keccak256 "owner()" then .str ("0x" ++ zeros 24 ++ ones 40)
    else .str ("0x" ++ zeros 63 ++ "7"))])

/-- The finalized block. -/
def block : ChainBlock where
  hash := "0x" ++ ones 64
  timestamp := 101
  executions _ := []
  nonce _ := 7

/-- A block before it, in which another batch used nonce 6. -/
def earlier : ChainBlock where
  hash := "0x" ++ zeros 63 ++ "1"
  timestamp := 90
  executions wallet := [⟨6, 7, some ⟨wallet, 6, 95, ""⟩⟩]
  nonce _ := 7

/-- The batch that was signed for the split. -/
def batch : Batch := ⟨replicate 20 0, 7, 100, ones 64⟩

lemma describes : Describes keccak256 rpc block where
  header := by
    intro n reply hreply
    cases hreply
    have htime : headerTimestamp header = some 101 := by decide +kernel
    have hhash : textAt header "hash" = some block.hash := by decide +kernel
    refine ⟨fun timestamp h => ?_, fun hash h => ?_⟩
    · exact Option.some.inj (h.symm.trans htime)
    · exact Option.some.inj (h.symm.trans hhash)
  nonce := by
    intro n wallet reply counter address hreply hword _
    cases hreply
    have hcall : selector keccak256 "nonce()" ≠ selector keccak256 "owner()" := by decide +kernel
    dsimp only at hword
    rw [if_neg hcall] at hword
    have hseven : word (.obj [("result", .str ("0x" ++ zeros 63 ++ "7"))]) "result" =
        .ok (expectedWord 7) := by decide +kernel
    cases hseven.symm.trans hword
    change BigEndian.value (expectedWord 7) = 7
    decide +kernel

lemma signedFor : batch.SignedFor intent :=
  ⟨by decide +kernel, by decide +kernel, rfl, rfl⟩

lemma lawful : Lawful [earlier, block] batch.wallet where
  timestamps := by decide
  monotone := by decide
  exact := by
    intro holder hholder e he b hb
    rcases mem_pair.1 hholder with rfl | rfl
    · cases mem_singleton.1 he
      cases hb
      decide
    · cases he

/-- The operation was submitted, and is of no instance. -/
def ledger : MaintenanceState where
  instances := ∅
  physical := fun _ => 0
  maintenanceOps := (∅ : AList fun _ : String => MaintenanceOperation).insert "split-1"
    { kind := .split, conditionId := "c", upTokenId := "up", downTokenId := "down",
      allocations := ∅, status := .uncertain }

def actions : List RecoveryAction :=
  [.finalize "split-1" intent rpc .queued, .giveUp, .finalize "split-1" intent rpc .queued,
    .ownerTurn, .poll (.ok ()), .ownerTurn]

/-- The first order waits in the queue until the caller gives up and orders the same again. The
operation is released once, and the batch is not executed. -/
theorem released_once :
    ∃ s, RecoveryState.run ⟨source, true⟩ keccak256 { ledger := ledger } actions = some s ∧
      s.released = ["split-1"] ∧ s.results.length = 2 ∧ s.released.Nodup ∧
      Describes keccak256 rpc block ∧ batch.SignedFor intent ∧
      Lawful [earlier, block] batch.wallet ∧ ¬Executed [earlier, block] batch := by
  have hrun : (RecoveryState.run ⟨source, true⟩ keccak256 { ledger := ledger }
      actions).any (fun s => s.released = ["split-1"] ∧ s.results.length = 2) = true := by
    decide +kernel
  obtain ⟨s, hs, hprop⟩ := (Option.any_eq_true ..).1 hrun
  obtain ⟨hrel, hres⟩ := of_decide_eq_true hprop
  obtain ⟨hsound, honce⟩ := expired_nonce_sound keccak256
  have hproof : expiredNonceUnused keccak256 intent rpc =
      .ok (some ⟨"0xa", "0x" ++ ones 64, 101⟩) := by decide +kernel
  exact ⟨s, hs, hrel, hres, (honce _ _ actions s hs).1, describes, signedFor, lawful,
    hsound intent rpc _ hproof [earlier] [] block batch describes signedFor lawful⟩

end ExpiredSplit

end HexAgent.Maintenance
