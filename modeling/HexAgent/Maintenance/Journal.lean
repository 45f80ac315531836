import HexAgent.Maintenance.Exact

/-!
# The journal of maintenance operations over whole runs

Over any run of calls the coverage of every instance is the sum of the allocations of the open
operations, a confirmed or failed operation never changes again, and the balances have moved by the
effects of exactly the operations that were confirmed (`maintenance_ledger_exact`). With exact
comparisons this needs only that the two tokens of an operation differ (`affords_of_confirmed`).

A failed call changes nothing, with two exceptions (`LeavesTrace`). A command whose answer is late
is still run. And a reservation whose durability could not be confirmed is failed by its caller, who
fails the operation with this id also if it was reserved before and is submitted already
(`repeated_reservation_fails_submitted`).
-/

namespace HexAgent.Maintenance

open Account AList MaintenanceIntent Option MaintenanceState List

variable {tol : Tolerance} {iid : String} {i : Instance}

section Failed

variable {cfg : Config} {s : MaintenanceState} {operationId : String} {op : MaintenanceOperation}
  {s' : MaintenanceState} {intent : MaintenanceIntent} {detail : String}

/-! ## Failed calls -/

/-- The same balances, coverage and operation statuses. -/
structure Unchanged (s s' : MaintenanceState) : Prop where
  instances : ∀ instanceId, s'.instances.lookup instanceId = s.instances.lookup instanceId
  physical : s'.physical = s.physical
  statuses : ∀ operationId, (s'.maintenanceOps.lookup operationId).map (fun op => op.status) =
    (s.maintenanceOps.lookup operationId).map fun op => op.status

lemma Unchanged.of_eq (h : s' = s) : Unchanged s s' := by
  subst h
  exact ⟨fun _ => rfl, rfl, fun _ => rfl⟩

/-- If this call fails, it still leaves a trace: a reservation that the owner accepted, or the
operation that it is mistaken for, or a late command that the owner has run. -/
def LeavesTrace (cfg : Config) (s : MaintenanceState) : MaintenanceCall → Prop
  | .reserve env admission operationId intent =>
    let accepted := (reserveMaintenanceOperationInner cfg s operationId env intent).2 = .ok ()
    let isNew := s.maintenanceOps.lookup operationId = none
    match admission with
    | .owner _ => accepted ∧ isNew
    | .dispatched _ undoQueued => accepted ∧ (isNew ∨ undoQueued = true ∧
        ∃ op, s.maintenanceOps.lookup operationId = some op ∧ op.status.isOpen = true)
    | .late _ => accepted ∧ isNew ∨ ∃ op, s.maintenanceOps.lookup operationId = some op ∧
        op.status = .reserved ∧ op.txId = none ∧ op.hasWalletSubmission = false
    | .refused _ => False
  | .submitted (.late _) operationId txId =>
    (markMaintenanceOperationSubmitted cfg s operationId txId).2 = .ok () ∧
      ∃ op, s.maintenanceOps.lookup operationId = some op ∧
        (op.status = .reserved ∨ op.status = .uncertain)
  | .confirm (.late _) operationId =>
    (confirmMaintenanceOperation cfg s operationId).2 = .ok () ∧
      ∃ op, s.maintenanceOps.lookup operationId = some op ∧ op.status.isOpen = true
  | _ => False

/-- To fail an operation that was open or unknown before leaves a trace. -/
lemma not_unchanged_of_fail
    (hpre : ∀ old ∈ s.maintenanceOps.lookup operationId, old.status.isOpen = true)
    (hop : s'.maintenanceOps.lookup operationId = some op) (hopen : op.status.isOpen = true) :
    ¬Unchanged s (failMaintenanceOperation cfg s' operationId detail) := by
  intro h
  have hst := h.statuses operationId
  rw [lookup_failMaintenanceOperation hop hopen, map_some] at hst
  obtain ⟨old, hold, hclosed⟩ := map_eq_some_iff.1 hst.symm
  have hlive := hpre old hold
  rw [hclosed] at hlive
  cases hlive

/-- An aborted admission leaves a trace exactly if the operation was never submitted. -/
lemma abort_unchanged_iff (detail : String) :
    Unchanged s (abortMaintenanceAdmission cfg s operationId detail) ↔
      ¬∃ op, s.maintenanceOps.lookup operationId = some op ∧ op.status = .reserved ∧
        op.txId = none ∧ op.hasWalletSubmission = false := by
  unfold abortMaintenanceAdmission
  cases hop : s.maintenanceOps.lookup operationId with
  | none =>
    refine iff_of_true (.of_eq rfl) ?_
    rintro ⟨op, heq, -⟩
    cases heq
  | some op =>
    dsimp only
    split
    · next hidle =>
      have hopen : op.status.isOpen = true := by rw [hidle.1]; rfl
      exact iff_of_false (not_unchanged_of_fail (by simp [hop, hopen]) hop hopen)
        (not_not.2 ⟨op, rfl, hidle.1, hidle.2.1, by simpa using hidle.2.2⟩)
    next hbusy =>
    refine iff_of_true (.of_eq rfl) ?_
    rintro ⟨op', heq, hst, htx, hwallet⟩
    cases heq
    exact hbusy ⟨hst, htx, by simpa using hwallet⟩

/-- To fail a known operation leaves a trace exactly if it was open. -/
lemma fail_unchanged_iff (hs : s.Sound cfg.tol) (heps : 0 ≤ cfg.tol.eps)
    (hop : s.maintenanceOps.lookup operationId = some op) :
    Unchanged s (failMaintenanceOperation cfg s operationId detail) ↔ op.status.isOpen = false := by
  cases hopen : op.status.isOpen with
  | true =>
    exact iff_of_false (not_unchanged_of_fail (by simp [hop, hopen]) hop hopen) Bool.noConfusion
  | false =>
    refine iff_of_true (.of_eq ?_) rfl
    unfold failMaintenanceOperation
    rw [hop]
    dsimp only
    rw [hopen, hs.mirrored.lockEconomicState]
    exact hs.mirrored.dropEconomicState heps

/-- A new operation that is failed again leaves a trace. -/
lemma not_unchanged_of_undone {t : MaintenanceState}
    (hnone : s.maintenanceOps.lookup operationId = none)
    (hops : t.maintenanceOps = s.maintenanceOps.insert operationId
      { toMaintenanceIntent := intent }) :
    ¬Unchanged s (failMaintenanceOperation cfg t operationId detail) := by
  have hnew : t.maintenanceOps.lookup operationId = some { toMaintenanceIntent := intent } := by
    rw [hops, lookup_insert]
  exact not_unchanged_of_fail (by simp [hnone]) hnew rfl

/-- A reservation that fails changes nothing, unless it leaves a trace. -/
lemma reserve_unchanged_iff (hs : s.Sound cfg.tol) (heps : 0 ≤ cfg.tol.eps) {env : Environment}
    {adm : Admission} (hex : PublishesAmounts cfg intent) {error : ReservationError}
    (herr : (reserveMaintenanceOperation cfg s env adm operationId intent).2 = .error error) :
    Unchanged s (reserveMaintenanceOperation cfg s env adm operationId intent).1 ↔
      ¬LeavesTrace cfg s (.reserve env adm operationId intent) := by
  unfold reserveMaintenanceOperation at herr ⊢
  unfold LeavesTrace
  dsimp only at herr ⊢
  generalize hinner :
    reserveMaintenanceOperationInner cfg s operationId env intent = inner at herr ⊢
  have hcases := reserveMaintenanceOperationInner_cases hs heps hex hinner
  clear hinner
  obtain ⟨t, result⟩ := inner
  cases adm with
  | refused reason => exact iff_of_true (.of_eq rfl) not_false
  | late reason =>
    dsimp only
    rcases hcases with ⟨rfl, hknown⟩ | ⟨hnone, rfl, hops, -⟩
    · rw [abort_unchanged_iff]
      refine not_congr ⟨.inr, ?_⟩
      rintro (⟨hacc, hnone⟩ | hidle)
      · have hsome := hknown hacc
        rw [hnone] at hsome
        cases hsome
      · exact hidle
    · refine iff_of_false ?_ (not_not.2 (.inl ⟨rfl, hnone⟩))
      have hnew : t.maintenanceOps.lookup operationId = some { toMaintenanceIntent := intent } := by
        rw [hops, lookup_insert]
      rw [abortMaintenanceAdmission, hnew]
      exact not_unchanged_of_undone hnone hops
  | owner flush =>
    rcases hcases with ⟨rfl, hknown⟩ | ⟨hnone, rfl, hops, -⟩
    · -- A known operation is accepted without a flush, so the failure is the owner's own.
      cases result with
      | error refusal =>
        refine iff_of_true ?_ fun h => nomatch h.1
        cases flush <;> exact .of_eq rfl
      | ok _ =>
        exfalso
        cases flush with
        | ok _ => cases herr
        | error reason =>
          dsimp only at herr
          rw [if_pos (hknown rfl)] at herr
          cases herr
    · cases flush with
      | ok _ => cases herr
      | error reason =>
        refine iff_of_false ?_ (not_not.2 ⟨rfl, hnone⟩)
        rw [hnone]
        exact not_unchanged_of_undone hnone hops
  | dispatched flush undoQueued =>
    rcases hcases with ⟨rfl, hknown⟩ | ⟨hnone, rfl, hops, -⟩
    · cases result with
      | error refusal =>
        refine iff_of_true ?_ fun h => nomatch h.1
        cases flush <;> exact .of_eq rfl
      | ok _ =>
        cases flush with
        | ok _ => cases herr
        | error reason =>
          obtain ⟨op, hop⟩ := isSome_iff_exists.1 (hknown rfl)
          dsimp only
          cases undoQueued with
          | false =>
            refine iff_of_true (.of_eq rfl) ?_
            rintro ⟨-, hnone | ⟨hqueued, -⟩⟩
            · rw [hop] at hnone
              cases hnone
            · cases hqueued
          | true =>
            rw [if_pos rfl, fail_unchanged_iff hs heps hop]
            simp [hop]
    · cases flush with
      | ok _ => cases herr
      | error reason =>
        refine iff_of_false ?_ (not_not.2 ⟨rfl, .inl hnone⟩)
        dsimp only
        cases undoQueued with
        | true => exact not_unchanged_of_undone hnone hops
        | false =>
          intro h
          have hst := h.statuses operationId
          rw [if_neg Bool.false_ne_true, hops, lookup_insert, hnone] at hst
          cases hst

/-- A run of a late submission mark leaves a trace exactly if it changes the status. -/
lemma submitted_unchanged_iff (hs : s.Sound cfg.tol) {txId : String} {out}
    (hout : markMaintenanceOperationSubmitted cfg s operationId txId = out) :
    Unchanged s out.1 ↔ ¬(out.2 = .ok () ∧ ∃ op, s.maintenanceOps.lookup operationId = some op ∧
      (op.status = .reserved ∨ op.status = .uncertain)) := by
  rcases markMaintenanceOperationSubmitted_cases hs hout with ⟨hsame, hconf⟩ | ⟨op, hop, hopen, rfl⟩
  · refine iff_of_true (.of_eq hsame) ?_
    rintro ⟨hok, op, hop, hst⟩
    obtain ⟨op', hop', hst'⟩ := hconf hok
    cases hop.symm.trans hop'
    rw [hst'] at hst
    simp at hst
  · have hstatus (h : Unchanged s (s.setOp operationId
        { op with txId := some txId, status := .submitted })) : op.status = .submitted := by
      have hst := h.statuses operationId
      rw [setOp, lookup_insert, hop] at hst
      exact (some.inj hst).symm
    constructor
    · rintro h ⟨-, op', hop', hst⟩
      cases hop.symm.trans hop'
      rw [hstatus h] at hst
      simp at hst
    · intro h
      have hst : op.status = .submitted := by
        cases hst : op.status <;> simp_all [MaintenanceOperationStatus.isOpen]
      refine ⟨fun _ => rfl, rfl, fun id => ?_⟩
      by_cases hid : id = operationId
      · subst hid
        rw [setOp, lookup_insert, hop]
        exact congrArg some hst.symm
      · rw [setOp, lookup_insert_ne hid]

/-- A run of a late confirmation leaves a trace exactly if it settles the operation. -/
lemma confirm_unchanged_iff (hs : s.Sound cfg.tol) (heps : 0 ≤ cfg.tol.eps) {out}
    (hout : confirmMaintenanceOperation cfg s operationId = out)
    (hex : ∀ op, s.maintenanceOps.lookup operationId = some op → op.status.isOpen = true →
      out.2 = .ok () → Affords s op) :
    Unchanged s out.1 ↔ ¬(out.2 = .ok () ∧ ∃ op, s.maintenanceOps.lookup operationId = some op ∧
      op.status.isOpen = true) := by
  rcases confirmMaintenanceOperation_cases hs heps hout hex with
    ⟨hsame, hconf⟩ | ⟨op, hop, hopen, hok, hnew, -⟩
  · refine iff_of_true (.of_eq hsame) ?_
    rintro ⟨hok, op, hop, hopen⟩
    obtain ⟨op', hop', hst'⟩ := hconf hok
    cases hop.symm.trans hop'
    rw [hst'] at hopen
    cases hopen
  · refine iff_of_false (fun h => ?_) (not_not.2 ⟨hok, op, hop, hopen⟩)
    have hst := h.statuses operationId
    rw [hnew, hop] at hst
    have hclosed : op.status = .confirmed := (some.inj hst).symm
    rw [hclosed] at hopen
    cases hopen

/-- A call that fails changes nothing, unless it leaves a trace. -/
lemma call_unchanged_iff (hs : s.Sound cfg.tol) (heps : 0 ≤ cfg.tol.eps) {call : MaintenanceCall}
    (hex : cfg.Exact s call) {error : MaintenanceError}
    (herr : (s.call cfg call).2 = .error error) :
    Unchanged s (s.call cfg call).1 ↔ ¬LeavesTrace cfg s call := by
  cases call with
  | reserve env adm operationId intent =>
    dsimp only [call] at herr ⊢
    cases hres : (reserveMaintenanceOperation cfg s env adm operationId intent).2 with
    | error refusal => exact reserve_unchanged_iff hs heps hex hres
    | ok _ =>
      rw [hres] at herr
      cases herr
  | submitted reply operationId txId =>
    cases reply with
    | answered =>
      refine iff_of_true ?_ not_false
      rcases markMaintenanceOperationSubmitted_cases hs rfl with ⟨hsame, -⟩ | ⟨_, _, _, hout⟩
      · exact .of_eq hsame
      · dsimp only [call, OwnerReply.deliver] at herr
        rw [hout] at herr
        cases herr
    | late reason => exact submitted_unchanged_iff hs rfl
    | refused reason => exact iff_of_true (.of_eq rfl) not_false
  | uncertain operationId detail => cases herr
  | fail operationId detail => cases herr
  | confirm reply operationId =>
    cases reply with
    | answered =>
      refine iff_of_true ?_ not_false
      rcases confirmMaintenanceOperation_cases hs heps rfl hex with
        ⟨hsame, -⟩ | ⟨_, _, _, hok, -⟩
      · exact .of_eq hsame
      · dsimp only [call, OwnerReply.deliver] at herr
        rw [hok] at herr
        cases herr
    | late reason => exact confirm_unchanged_iff hs heps rfl hex
    | refused reason => exact iff_of_true (.of_eq rfl) not_false

end Failed

/-! ## Runs -/

/-- A call none of whose changes is lost. -/
def ExactStep (cfg : Config) (s : MaintenanceState) (call : MaintenanceCall)
    (s' : MaintenanceState) : Prop :=
  cfg.Exact s call ∧ (s.call cfg call).1 = s'

lemma Moved.final {s s' : MaintenanceState} (h : Moved tol s s') {operationId : String}
    {op : MaintenanceOperation} (hop : s.maintenanceOps.lookup operationId = some op)
    (hfinal : op.status.isOpen = false) : s'.maintenanceOps.lookup operationId = some op := by
  induction h with
  | refl => exact hop
  | tail _ hlast ih => exact hlast.final ih hfinal

lemma Moved.accounts {s s' : MaintenanceState} (h : Moved tol s s') : Accounts s s' := by
  induction h with
  | refl => exact .refl s
  | tail _ hlast ih => exact ih.trans hlast.accounts

section Run

variable {cfg : Config} {s s' : MaintenanceState} {calls : List MaintenanceCall}

lemma Moved.run (heps : 0 ≤ cfg.tol.eps) (hs : s.Sound cfg.tol)
    (hrun : Trace (ExactStep cfg) s calls s') : Moved cfg.tol s s' := by
  induction hrun with
  | nil => exact .refl
  | cons hstep _ ih =>
    obtain ⟨hex, rfl⟩ := hstep
    have hfirst := Moved.call hs heps hex
    exact hfirst.trans (ih (hs.moved hfirst))

/-- The journal over a run: coverage is the sum of the open allocations, closed operations are
final, the balances moved by the effects of the confirmed operations, and a call that fails changes
nothing unless it leaves a trace. -/
theorem maintenance_ledger_exact (heps : 0 ≤ cfg.tol.eps) (hs : s.Sound cfg.tol)
    (hrun : Trace (ExactStep cfg) s calls s') :
    (∀ instanceId i, s'.instances.lookup instanceId = some i → ∀ asset,
      i.ledger.reserved asset = s'.coverage instanceId asset ∧
        i.shard.reserved asset = s'.coverage instanceId asset) ∧
    (∀ operationId op, s.maintenanceOps.lookup operationId = some op → op.status.isOpen = false →
      s'.maintenanceOps.lookup operationId = some op) ∧
    Accounts s s' ∧
    ∀ call error, cfg.Exact s' call → (s'.call cfg call).2 = .error error →
      (Unchanged s' (s'.call cfg call).1 ↔ ¬LeavesTrace cfg s' call) := by
  have hmoved := Moved.run heps hs hrun
  have hs' := hs.moved hmoved
  refine ⟨fun instanceId i hi asset => ?_, fun operationId op => hmoved.final, hmoved.accounts,
    fun call error hex => call_unchanged_iff hs' heps hex⟩
  have hcov := hs'.covered instanceId i hi asset
  rw [hs'.mirrored instanceId i hi]
  exact ⟨hcov, hcov⟩

end Run

/-! ## Exact comparisons -/

section ExactComparisons

variable {cfg : Config} {s : MaintenanceState} {operationId : String} {op : MaintenanceOperation}
  {asset : Asset}

lemma confirmError_eq_none_of_ok (hs : s.Sound cfg.tol)
    (hop : s.maintenanceOps.lookup operationId = some op) (hopen : op.status.isOpen = true)
    (hok : (confirmMaintenanceOperation cfg s operationId).2 = .ok ()) :
    confirmError cfg s op = none := by
  unfold confirmMaintenanceOperation at hok
  rw [hop] at hok
  dsimp only at hok
  rw [hs.mirrored.lockEconomicState] at hok
  unfold settleOperation at hok
  split at hok
  · next hconf =>
    rw [hconf] at hopen
    cases hopen
  · split at hok
    · cases hok
    · split at hok
      · cases hok
      · split at hok
        · cases hok
        · assumption

/-- A confirmation whose coverage was checked leaves at least zero of what it takes. -/
lemma le_balance_of_confirmError (hs : s.Sound cfg.tol) (hzero : cfg.tol.eps = 0)
    (hnone : confirmError cfg s op = none) (hi : s.instances.lookup iid = some i) {amount : ℚ}
    (hamt : op.allocations.lookup iid = some amount) (hasset : asset ∈ op.takes) :
    amount ≤ i.shard.balance asset := by
  have hall := (or_eq_none_iff.1 hnone).2
  have hent := findSome?_eq_none_iff.1 hall ⟨iid, amount⟩ (mem_entries_iff.2 hamt)
  rw [hi] at hent
  have hcov := findSome?_eq_none_iff.1 hent asset hasset
  dsimp only at hcov
  split at hcov
  · cases hcov
  next hle =>
  rw [hzero, add_zero, not_lt, hs.mirrored iid i hi] at hle
  exact hle.trans (min_le_left _ _)

lemma neg_one_le_sign {intent : MaintenanceIntent} (h : intent.upTokenId ≠ intent.downTokenId) :
    -1 ≤ intent.sign asset ∧ (asset ∉ intent.takes → 0 ≤ intent.sign asset) := by
  have hnd : intent.takes.Nodup := by
    unfold takes
    split <;> simp [h]
  have hcount := nodup_iff_count_le_one.1 hnd asset
  unfold sign
  constructor
  · omega
  · intro hasset
    rw [count_eq_zero.2 hasset]
    omega

/-- With exact comparisons, a confirmation of two different tokens takes no more than the instances
have. -/
theorem affords_of_confirmed (hs : s.Sound cfg.tol) (hzero : cfg.tol.eps = 0)
    (hop : s.maintenanceOps.lookup operationId = some op) (hopen : op.status.isOpen = true)
    (htoks : op.upTokenId ≠ op.downTokenId)
    (hok : (confirmMaintenanceOperation cfg s operationId).2 = .ok ()) : Affords s op := by
  intro instanceId i hi asset
  have hbal := hs.nonneg instanceId i hi asset
  have hall := (hs.sized _ _ hop).allocated_nonneg hzero.ge instanceId
  obtain ⟨hsign, hpos⟩ := neg_one_le_sign htoks
  unfold effect
  by_cases hasset : asset ∈ op.takes
  · cases hamt : op.allocations.lookup instanceId with
    | none => simpa [allocated, hamt] using hbal
    | some amount =>
      have hle := le_balance_of_confirmError hs hzero (confirmError_eq_none_of_ok hs hop hopen hok)
        hi hamt hasset
      have heq : op.allocated instanceId = amount := by simp [allocated, hamt]
      have hsign : (-1 : ℚ) ≤ op.sign asset := by exact_mod_cast hsign
      rw [heq] at hall ⊢
      nlinarith
  · have hsign : (0 : ℚ) ≤ op.sign asset := by exact_mod_cast hpos hasset
    exact add_nonneg hbal (mul_nonneg hsign hall)

end ExactComparisons

/-! ## A split -/

namespace Split

/-- The tolerances of the source, before the lifecycle lane is bound. -/
def config : Config := ⟨Tolerance.source, false⟩

/-- An instance with 100 of cash. -/
def books : Book := ⟨fun asset => if asset = none then 100 else 0, fun _ => 0⟩

def start : MaintenanceState where
  instances := singleton "S1" ⟨books, books, fun _ => 0⟩
  physical asset := if asset = none then 100 else 0
  maintenanceOps := ∅

/-- Split 10 for the instance. -/
def intent : MaintenanceIntent where
  kind := .split
  conditionId := "condition"
  upTokenId := "UP"
  downTokenId := "DOWN"
  allocations := singleton "S1" 10

/-- A reservation whose flush has the given result. -/
def reserve (flush : Except String Unit) : MaintenanceCall :=
  .reserve {} (.dispatched flush true) "split-1" intent

def afterCall (s : MaintenanceState) (call : MaintenanceCall) : MaintenanceState :=
  (s.call config call).1

def reserved : MaintenanceState := afterCall start (reserve (.ok ()))

def submitted : MaintenanceState := afterCall reserved (.submitted .answered "split-1" "tx-1")

lemma lookup_start (h : start.instances.lookup iid = some i) : i = ⟨books, books, fun _ => 0⟩ := by
  have hmem := mem_lookup_iff.1 (mem_def.2 h)
  cases mem_singleton.1 hmem
  rfl

lemma sound_start : start.Sound config.tol where
  mirrored _ i hi := by
    rw [lookup_start hi]
  covered _ i hi _ := by
    rw [lookup_start hi]
    rfl
  nonneg _ i hi asset := by
    rw [lookup_start hi]
    dsimp only [books]
    split <;> norm_num
  sized _ _ hop := by cases hop

lemma publishes_intent : PublishesAmounts config intent := by
  intro iid amount hamt _
  have hmem := mem_lookup_iff.1 (mem_def.2 hamt)
  cases mem_singleton.1 hmem
  decide +kernel

lemma trace_submitted :
    Trace (ExactStep config) start [reserve (.ok ()), .submitted .answered "split-1" "tx-1"]
      submitted :=
  .cons ⟨publishes_intent, rfl⟩ (.cons ⟨trivial, rfl⟩ (.nil _))

end Split

theorem maintenance_ledger_exact_split :
    Split.submitted.coverage "S1" none = 10 ∧
      ∀ i, Split.submitted.instances.lookup "S1" = some i →
        i.shard.reserved none = Split.submitted.coverage "S1" none := by
  refine ⟨by decide +kernel, fun i hi => ?_⟩
  obtain ⟨hcov, -⟩ :=
    maintenance_ledger_exact (by decide +kernel) Split.sound_start Split.trace_submitted
  exact (hcov "S1" i hi none).2

/-- A submitted operation is reserved again, with the same intent. The owner accepts, the flush of
the caller fails, and the caller gets an error; but the submitted operation is now failed and its
coverage is gone. -/
theorem repeated_reservation_fails_submitted :
    (Split.submitted.call Split.config (Split.reserve (.error "disk"))).2.isOk = false ∧
      (Split.submitted.maintenanceOps.lookup "split-1").map (fun op => op.status) =
        some .submitted ∧
      ((Split.afterCall Split.submitted (Split.reserve (.error "disk"))).maintenanceOps.lookup
        "split-1").map (fun op => op.status) = some .failed ∧
      (Split.submitted.instances.lookup "S1").map (fun i => i.shard.reserved none) = some 10 ∧
      ((Split.afterCall Split.submitted (Split.reserve (.error "disk"))).instances.lookup
        "S1").map (fun i => i.shard.reserved none) = some 0 := by
  decide +kernel

end HexAgent.Maintenance
