import HexAgent.Maintenance.Moves
import HexAgent.ToMathlib.Trace

/-!
# The counters follow the journal

The invariant of the maintenance journal: ledgers and shards agree, and the coverage of an instance
is the sum of the allocations of the open operations. Every change of a call keeps it
(`Sound.moves`), leaves closed operations alone (`Moves.final`), and moves the balances by the
effect of the operation that it confirms, if any (`Moves.accounts`).
-/

namespace HexAgent.Maintenance

open Account MaintenanceIntent Option Instance MaintenanceOperation AList

variable {i : Instance}

/-! ## The invariant -/

namespace MaintenanceOperation

variable (op : MaintenanceOperation) (instanceId : String) (asset : Asset)

/-- Coverage that the operation holds now. -/
def covers : ℚ := if op.status.isOpen then op.coverage instanceId asset else 0

/-- Change of the balances that the operation has made. -/
def settles : ℚ := if op.status = .confirmed then op.effect instanceId asset else 0

/-- Change of the wallet that the operation has made. -/
def settlesPhysical : ℚ := if op.status = .confirmed then op.physicalEffect asset else 0

end MaintenanceOperation

namespace MaintenanceState

variable (s : MaintenanceState)

/-- Sum of the allocations of the open operations. -/
def coverage (instanceId : String) (asset : Asset) : ℚ :=
  s.maintenanceOps.sumBy fun _ op => op.covers instanceId asset

/-- Sum of the effects of the confirmed operations. -/
def settled (instanceId : String) (asset : Asset) : ℚ :=
  s.maintenanceOps.sumBy fun _ op => op.settles instanceId asset

/-- Sum of the effects of the confirmed operations on the wallet. -/
def settledPhysical (asset : Asset) : ℚ :=
  s.maintenanceOps.sumBy fun _ op => op.settlesPhysical asset

/-- The counters of the instances are those of the journal. -/
structure Sound (tol : Tolerance) : Prop where
  mirrored : s.Mirrored
  covered : ∀ instanceId i, s.instances.lookup instanceId = some i →
    ∀ asset, i.shard.reserved asset = s.coverage instanceId asset
  nonneg : ∀ instanceId i, s.instances.lookup instanceId = some i →
    ∀ asset, 0 ≤ i.shard.balance asset
  sized : ∀ operationId op, s.maintenanceOps.lookup operationId = some op → op.Sized tol

end MaintenanceState

variable {instanceId : String}

section Moves

variable {tol : Tolerance} {s s' : MaintenanceState} {operationId : String} {asset : Asset}
  {op : MaintenanceOperation} {balance reserved : String → Asset → ℚ} {physical : Asset → ℚ}

section

variable (h : Writes s s' operationId op balance reserved physical)
include h

/-- A written operation changes a sum over the journal by its own contribution. -/
lemma Writes.sumBy (f : MaintenanceOperation → ℚ) : s'.maintenanceOps.sumBy (fun _ op => f op) =
      s.maintenanceOps.sumBy (fun _ op => f op) +
        (f op - (s.maintenanceOps.lookup operationId).elim 0 f) := by
  rw [h.ops]
  exact sumBy_insert _ _ _ _

lemma Writes.exists_instance (hi : s'.instances.lookup instanceId = some i) :
    ∃ before, s.instances.lookup instanceId = some before ∧
      before.moved (balance instanceId) (reserved instanceId) = i := by
  rw [h.instances] at hi
  exact map_eq_some_iff.1 hi

end

/-- A write that keeps the counters at the sum of the journal keeps the invariant. -/
lemma MaintenanceState.Sound.writes (hs : s.Sound tol)
    (h : Writes s s' operationId op balance reserved physical)
    (hcov : ∀ instanceId asset, op.covers instanceId asset -
      (s.maintenanceOps.lookup operationId).elim 0 (fun op => op.covers instanceId asset) =
        reserved instanceId asset) (hnn : ∀ instanceId i, s.instances.lookup instanceId = some i →
      ∀ asset, 0 ≤ i.shard.balance asset + balance instanceId asset)
    (hsized : op.Sized tol) : s'.Sound tol where
  mirrored instanceId i hi := by
    obtain ⟨before, -, rfl⟩ := h.exists_instance hi
    rfl
  covered instanceId i hi asset := by
    obtain ⟨before, hpre, rfl⟩ := h.exists_instance hi
    have hsum := h.sumBy fun op => op.covers instanceId asset
    rw [hcov] at hsum
    rw [MaintenanceState.coverage, hsum]
    exact congrArg (· + _) (hs.covered instanceId before hpre asset)
  nonneg instanceId i hi asset := by
    obtain ⟨before, hpre, rfl⟩ := h.exists_instance hi
    exact hnn instanceId before hpre asset
  sized := h.ops ▸ forall_lookup_insert hsized hs.sized

lemma covers_of_isOpen (h : op.status.isOpen = true) (instanceId : String) (asset : Asset) :
    op.covers instanceId asset = op.coverage instanceId asset := if_pos h

lemma covers_of_not_isOpen (h : op.status.isOpen = false) (instanceId : String) (asset : Asset) :
    op.covers instanceId asset = 0 := if_neg (by rw [h]; exact Bool.false_ne_true)

lemma MaintenanceState.Sound.moves (hs : s.Sound tol) (h : Moves tol s s') : s'.Sound tol := by
  have hzero instanceId i
      (hi : s.instances.lookup instanceId = some i) asset :
      0 ≤ i.shard.balance asset + 0 := by
    rw [add_zero]
    exact hs.nonneg instanceId i hi asset
  cases h with
  | admitted hnone hst hsized hwrs =>
    refine hs.writes hwrs (fun instanceId asset => ?_) hzero hsized
    rw [hnone, elim_none, sub_zero, covers_of_isOpen (by rw [hst]; rfl)]
  | relabelled hop hopen hint hopen' hwrs =>
    refine hs.writes hwrs (fun instanceId asset => ?_) hzero (hint ▸ hs.sized _ _ hop)
    rw [hop, elim_some, covers_of_isOpen hopen', covers_of_isOpen hopen, hint, sub_self]
  | failed hop hopen hint hst hwrs =>
    refine hs.writes hwrs (fun instanceId asset => ?_) hzero (hint ▸ hs.sized _ _ hop)
    rw [hop, elim_some, covers_of_not_isOpen (by rw [hst]; rfl), covers_of_isOpen hopen, zero_sub]
  | confirmed hop hopen hint hst hnn hwrs =>
    refine hs.writes hwrs (fun instanceId asset => ?_) hnn (hint ▸ hs.sized _ _ hop)
    rw [hop, elim_some, covers_of_not_isOpen (by rw [hst]; rfl), covers_of_isOpen hopen, zero_sub]

/-- A confirmed or failed operation is final. -/
lemma Moves.final (h : Moves tol s s') (hop : s.maintenanceOps.lookup operationId = some op)
    (hfinal : op.status.isOpen = false) : s'.maintenanceOps.lookup operationId = some op := by
  -- The operation that is written was absent or open, so it is another one.
  have hother {id : String} {new : MaintenanceOperation} {balance reserved : String → Asset → ℚ}
      {physical : Asset → ℚ} (hwrs : Writes s s' id new balance reserved physical)
      (hold : ∀ old ∈ s.maintenanceOps.lookup id, old.status.isOpen = true) :
      s'.maintenanceOps.lookup operationId = some op := by
    rw [hwrs.ops, lookup_insert_ne]
    · exact hop
    · rintro rfl
      exact Bool.false_ne_true (hfinal.symm.trans (hold op hop))
  cases h with
  | admitted hnone _ _ hwrs => exact hother hwrs (by simp [hnone])
  | relabelled hold hlive _ _ hwrs | failed hold hlive _ _ hwrs | confirmed hold hlive _ _ _ hwrs =>
    exact hother hwrs (by simp [hold, hlive])

/-- The state moved by the effects of the operations that became confirmed. -/
structure Accounts (s s' : MaintenanceState) : Prop where
  balance : ∀ instanceId i', s'.instances.lookup instanceId = some i' →
    ∃ i, s.instances.lookup instanceId = some i ∧ ∀ asset, i'.shard.balance asset =
      i.shard.balance asset + (s'.settled instanceId asset - s.settled instanceId asset)
  physical : ∀ asset, s'.physical asset =
    s.physical asset + (s'.settledPhysical asset - s.settledPhysical asset)

lemma Accounts.refl (s : MaintenanceState) : Accounts s s where
  balance _ i' hi := ⟨i', hi, fun _ => by rw [sub_self, add_zero]⟩
  physical _ := by rw [sub_self, add_zero]

lemma Accounts.trans {s'' : MaintenanceState} (h : Accounts s s') (h' : Accounts s' s'') :
    Accounts s s'' where
  balance instanceId i'' hi'' := by
    obtain ⟨i', hi', hbal'⟩ := h'.balance instanceId i'' hi''
    obtain ⟨i, hi, hbal⟩ := h.balance instanceId i' hi'
    refine ⟨i, hi, fun asset => ?_⟩
    rw [hbal', hbal]
    ring
  physical asset := by
    rw [h'.physical, h.physical]
    ring

lemma ne_confirmed_of_isOpen (h : op.status.isOpen = true) : op.status ≠ .confirmed := by
  intro heq
  rw [heq] at h
  cases h

/-- The written operation was not confirmed before, so its own effect is all that is new. -/
lemma Writes.accounts (h : Writes s s' operationId op balance reserved physical)
    (hold : ∀ old ∈ s.maintenanceOps.lookup operationId, old.status.isOpen = true)
    (hbal : ∀ instanceId asset, op.settles instanceId asset = balance instanceId asset)
    (hphys : ∀ asset, op.settlesPhysical asset = physical asset) : Accounts s s' := by
  have hsum (f : MaintenanceOperation → ℚ) (hf : ∀ op, op.status ≠ .confirmed → f op = 0) :
      f op = s'.maintenanceOps.sumBy (fun _ op => f op) -
        s.maintenanceOps.sumBy fun _ op => f op := by
    rw [h.sumBy f, add_sub_cancel_left]
    cases hop : s.maintenanceOps.lookup operationId with
    | none => rw [elim_none, sub_zero]
    | some old => rw [elim_some, hf old (ne_confirmed_of_isOpen (hold old hop)), sub_zero]
  refine ⟨fun instanceId i' hi' => ?_, fun asset => ?_⟩
  · obtain ⟨i, hi, rfl⟩ := h.exists_instance hi'
    refine ⟨i, hi, fun asset => congrArg (_ + ·) ?_⟩
    rw [← hbal]
    exact hsum (·.settles instanceId asset) fun _ hne => if_neg hne
  · rw [h.physical, ← hphys]
    exact congrArg (_ + ·) (hsum (·.settlesPhysical asset) fun _ hne => if_neg hne)

lemma Moves.accounts (h : Moves tol s s') : Accounts s s' := by
  cases h with
  | admitted hnone hst _ hwrs =>
    have hnew := ne_confirmed_of_isOpen (congrArg MaintenanceOperationStatus.isOpen hst)
    exact hwrs.accounts (by simp [hnone]) (fun _ _ => if_neg hnew) fun _ => if_neg hnew
  | relabelled hop hlive _ hlive' hwrs =>
    have hnew := ne_confirmed_of_isOpen hlive'
    exact hwrs.accounts (by simp [hop, hlive]) (fun _ _ => if_neg hnew) fun _ => if_neg hnew
  | failed hop hlive _ hst hwrs =>
    have hnew := hst.trans_ne (by decide : MaintenanceOperationStatus.failed ≠ .confirmed)
    exact hwrs.accounts (by simp [hop, hlive]) (fun _ _ => if_neg hnew) fun _ => if_neg hnew
  | confirmed hop hlive hint hst _ hwrs =>
    refine hwrs.accounts (by simp [hop, hlive]) (fun _ _ => ?_) fun _ => ?_
    · rw [settles, if_pos hst, hint]
    · rw [settlesPhysical, if_pos hst, hint]

end Moves

/-! ## Calls -/

section Calls

variable {cfg : Config} {s : MaintenanceState} {operationId : String} {op : MaintenanceOperation}
  {intent : MaintenanceIntent} {asset : Asset}

/-- The coverage of an operation is published when it is taken or given back. -/
lemma publishable_coverage {before : Asset → ℚ}
    (hsized : intent.Sized cfg.tol) (heps : 0 ≤ cfg.tol.eps)
    (instanceId : String) {change : Asset → ℚ} (n : ℤ)
    (hchange : ∀ asset, change asset = n * intent.coverage instanceId asset)
    (hnn : ∀ asset, 0 ≤ before asset + change asset) :
    Publishable cfg.tol intent.scope before change where
  outside asset hasset := by
    rw [hchange, coverage, intent.count_takes_eq_zero hasset]
    simp
  sized asset := by
    rw [hchange, coverage, ← mul_assoc]
    exact_mod_cast hsized.publishes heps
  nonneg := hnn

/-- The loop over an allocation moves the ledgers of the instances. -/
lemma lookup_allocate_moved (hs : s.Mirrored)
    {f : ℚ → Instance → Instance} (balance reserved : String → Asset → ℚ)
    (hsome : ∀ instanceId i amount, s.instances.lookup instanceId = some i →
      intent.allocations.lookup instanceId = some amount →
      f amount i =
        { i with ledger := (i.moved (balance instanceId) (reserved instanceId)).ledger })
    (hnone : ∀ instanceId, intent.allocations.lookup instanceId = none →
      ∀ asset, balance instanceId asset = 0 ∧ reserved instanceId asset = 0) (instanceId : String) :
    (s.allocate intent.allocations f).instances.lookup instanceId =
      (s.instances.lookup instanceId).map fun i =>
        { i with ledger := (i.moved (balance instanceId) (reserved instanceId)).ledger } := by
  refine (s.instances.lookup_foldl_modifyRow instanceId f intent.allocations).trans ?_
  cases hi : s.instances.lookup instanceId with
  | none => rfl
  | some i =>
    refine congrArg some ?_
    cases hamt : intent.allocations.lookup instanceId with
    | some amount => exact hsome instanceId i amount hi hamt
    | none =>
      have hbal := funext fun asset => (hnone instanceId hamt asset).1
      have hrsv := funext fun asset => (hnone instanceId hamt asset).2
      rw [hbal, hrsv]
      simp only [moved, add_zero]
      exact (mirror_eq (hs instanceId i hi)).symm

lemma coverage_eq_zero (h : intent.allocations.lookup instanceId = none) (asset : Asset) :
    intent.coverage instanceId asset = 0 := by
  rw [coverage, allocated, h, getD_none, mul_zero]

/-- The amounts of a reservation are large enough to be published. -/
def PublishesAmounts (cfg : Config) (intent : MaintenanceIntent) : Prop :=
  ∀ instanceId amount, intent.allocations.lookup instanceId = some amount → 0 < amount →
    cfg.tol.eps < amount

lemma sized_of_valid (hval : invalidIntent operationId intent = false)
    (h : PublishesAmounts cfg intent) : intent.Sized cfg.tol := by
  intro instanceId amount hamt
  refine h instanceId amount hamt ?_
  simp only [invalidIntent, Bool.or_eq_false_iff, List.any_eq_false] at hval
  have hpos := hval.2 ⟨instanceId, amount⟩ (mem_entries_iff.2 hamt)
  simpa using hpos

lemma isOpen_of_ne {status : MaintenanceOperationStatus} (hconf : status ≠ .confirmed)
    (hfail : status ≠ .failed) : status.isOpen = true := by
  cases status with
  | confirmed => exact absurd rfl hconf
  | failed => exact absurd rfl hfail
  | _ => rfl

/-- Writing an operation leaves the instances where they are. -/
lemma writes_setOp (hs : s.Mirrored) :
    Writes s (s.setOp operationId op) operationId op (fun _ _ => 0) (fun _ _ => 0)
      (fun _ => 0) where
  ops := rfl
  instances instanceId := by
    cases hi : s.instances.lookup instanceId with
    | none => exact hi
    | some i =>
      refine hi.trans (congrArg some ?_)
      simp only [moved, add_zero]
      exact (congrArg (fun book => (⟨book, i.shard, i.orderReserved⟩ : Instance))
        (hs instanceId i hi) : i = _)
  physical _ := (add_zero _).symm

lemma markMaintenanceOperationSubmitted_cases (hs : s.Sound cfg.tol) {txId : String} {out}
    (hout : markMaintenanceOperationSubmitted cfg s operationId txId = out) :
    out.1 = s ∧ (out.2 = .ok () → ∃ op, s.maintenanceOps.lookup operationId = some op ∧
        op.status = .confirmed) ∨
      ∃ op, s.maintenanceOps.lookup operationId = some op ∧ op.status.isOpen = true ∧
        out =
          (s.setOp operationId { op with txId := some txId, status := .submitted }, .ok ()) := by
  subst hout
  unfold markMaintenanceOperationSubmitted
  split
  · exact .inl ⟨rfl, nofun⟩
  dsimp only
  rw [hs.mirrored.lockState]
  cases hop : s.maintenanceOps.lookup operationId with
  | none => exact .inl ⟨rfl, nofun⟩
  | some op =>
    dsimp only
    split
    · next hconf => exact .inl ⟨rfl, fun _ => ⟨op, rfl, hconf⟩⟩
    next hconf =>
    split
    · exact .inl ⟨rfl, nofun⟩
    next hfail =>
    split
    · exact .inl ⟨rfl, nofun⟩
    · exact .inr ⟨op, rfl, isOpen_of_ne hconf hfail, rfl⟩

lemma Moved.markMaintenanceOperationSubmitted (hs : s.Sound cfg.tol) (operationId txId : String) :
    Moved cfg.tol s (markMaintenanceOperationSubmitted cfg s operationId txId).1 := by
  rcases markMaintenanceOperationSubmitted_cases hs rfl with ⟨hsame, -⟩ | ⟨op, hop, hopen, hout⟩
  · rw [hsame]
  · rw [hout]
    refine .single (.relabelled hop hopen ?_ ?_ (writes_setOp hs.mirrored))
    · rfl
    · rfl

lemma Moved.markMaintenanceOperationUncertain (hs : s.Sound cfg.tol) (operationId detail : String) :
    Moved cfg.tol s (markMaintenanceOperationUncertain cfg s operationId detail) := by
  unfold Maintenance.markMaintenanceOperationUncertain
  dsimp only
  rw [hs.mirrored.lockState]
  cases hop : s.maintenanceOps.lookup operationId with
  | none => exact .refl
  | some op =>
    dsimp only
    split
    · exact .refl
    next hopen =>
    have hopen : op.status.isOpen = true := by
      by_contra hclosed
      exact hopen (by simp [hclosed])
    refine .single (.relabelled hop hopen ?_ ?_ (writes_setOp hs.mirrored))
    · rfl
    · rfl

/-- No instance of an operation would get a negative balance. -/
def Affords (s : MaintenanceState) (op : MaintenanceOperation) : Prop :=
  ∀ instanceId i, s.instances.lookup instanceId = some i →
    ∀ asset, 0 ≤ i.shard.balance asset + op.effect instanceId asset

lemma MaintenanceState.Sound.moved {s' : MaintenanceState} (hs : s.Sound cfg.tol)
    (h : Moved cfg.tol s s') : s'.Sound cfg.tol := by
  induction h with
  | refl => exact hs
  | tail _ hlast ih => exact ih.moves hlast

/-- No change of a call is lost on the way to the shards: the amounts of a reservation exceed the
tolerance, and a confirmation takes no more than the instances have. -/
def Config.Exact (cfg : Config) (s : MaintenanceState) : MaintenanceCall → Prop
  | .reserve _ _ _ intent => PublishesAmounts cfg intent
  | .confirm _ operationId => ∀ op, s.maintenanceOps.lookup operationId = some op →
      op.status.isOpen = true → (confirmMaintenanceOperation cfg s operationId).2 = .ok () →
        Affords s op
  | _ => True

variable (hs : s.Sound cfg.tol) (heps : 0 ≤ cfg.tol.eps)
include hs heps

lemma MaintenanceState.Sound.covers_nonneg :
    ∀ e ∈ s.maintenanceOps.entries, 0 ≤ e.2.covers instanceId asset := by
  intro e he
  unfold covers
  split
  · have hsized := hs.sized e.1 e.2 (mem_entries_iff.1 he)
    exact mul_nonneg (Nat.cast_nonneg _) (hsized.allocated_nonneg heps instanceId)
  · exact le_rfl

section Open

variable (hop : s.maintenanceOps.lookup operationId = some op) (hopen : op.status.isOpen = true)
include hop hopen

section

variable (hi : s.instances.lookup instanceId = some i)
include hi

/-- The coverage of an open operation is part of the counter. -/
lemma MaintenanceState.Sound.coverage_le
    (asset : Asset) :
    op.coverage instanceId asset ≤ i.shard.reserved asset := by
  rw [hs.covered instanceId i hi asset, ← covers_of_isOpen hopen]
  exact le_sumBy (f := fun _ op => op.covers instanceId asset) (hs.covers_nonneg heps) hop

/-- Giving back the coverage of an open operation does not reach the clamp. -/
lemma MaintenanceState.Sound.release_eq {amount : ℚ}
    (hamt : op.allocations.lookup instanceId = some amount) {j : Instance}
    (hj : j.ledger.reserved = i.shard.reserved) : op.release amount j =
      j.setReserved fun asset => i.shard.reserved asset + -op.coverage instanceId asset := by
  have hall : op.allocated instanceId = amount := by
    rw [allocated, hamt, getD_some]
  have hpos : 0 ≤ amount := hall ▸ (hs.sized _ _ hop).allocated_nonneg heps instanceId
  rw [MaintenanceIntent.release_eq _ _ _ hpos]
  · refine congrArg j.setReserved (funext fun asset => ?_)
    rw [hj, MaintenanceIntent.coverage, hall, sub_eq_add_neg]
  · intro asset
    have hle := hs.coverage_le heps hop hopen hi asset
    rw [MaintenanceIntent.coverage, hall] at hle
    rwa [hj]

lemma MaintenanceState.Sound.publishable_release :
    Publishable cfg.tol op.scope i.shard.reserved fun asset => -op.coverage instanceId asset := by
  refine publishable_coverage (hs.sized _ _ hop) heps instanceId (-1) (fun asset => ?_)
    fun asset => ?_
  · push_cast
    rw [neg_one_mul]
  · rw [← sub_eq_add_neg]
    exact sub_nonneg.2 (hs.coverage_le heps hop hopen hi asset)

end

/-- The loop of a confirmation moves the ledgers by the effect and off the coverage. -/
lemma MaintenanceState.Sound.lookup_settled (instanceId : String) :
    (s.allocate op.allocations fun amount i =>
        op.release amount (op.exchange amount i)).instances.lookup instanceId =
      (s.instances.lookup instanceId).map fun i =>
        { i with
          ledger := (i.moved (op.effect instanceId)
            fun asset => -op.coverage instanceId asset).ledger } := by
  refine lookup_allocate_moved hs.mirrored op.effect
    (fun instanceId asset => -op.coverage instanceId asset)
    (fun instanceId i amount hi hamt => ?_)
    (fun instanceId hnone asset => ⟨by rw [effect, allocated, hnone, getD_none, mul_zero], ?_⟩)
    instanceId
  · have hbook := hs.mirrored instanceId i hi
    rw [hs.release_eq heps hop hopen hi hamt, exchange_eq]
    · simp only [Instance.setReserved, Instance.setBalance, Instance.moved, hbook,
        effect, allocated, hamt, getD_some]
    · have hrsv : i.ledger.reserved = i.shard.reserved := by rw [hbook]
      rw [exchange_eq]
      exact hrsv
  · rw [coverage_eq_zero hnone, neg_zero]

end Open

lemma Moved.failMaintenanceOperation (operationId detail : String) :
    Moved cfg.tol s (failMaintenanceOperation cfg s operationId detail) := by
  unfold Maintenance.failMaintenanceOperation
  cases hop : s.maintenanceOps.lookup operationId with
  | none => exact .refl
  | some op =>
    dsimp only
    rw [hs.mirrored.lockEconomicState]
    split
    · rw [hs.mirrored.dropEconomicState heps]
    next hopen =>
    have hopen : op.status.isOpen = true := by simpa using hopen
    refine .single (.failed hop hopen ?_ ?_ ⟨rfl, ?_, fun _ => (add_zero _).symm⟩)
    · rfl
    · rfl
    refine MaintenanceState.lookup_dropEconomicState ?_
      (fun instanceId i hi => publishable_zero (hs.nonneg instanceId i hi))
      fun instanceId i hi => hs.publishable_release heps hop hopen hi
    refine lookup_allocate_moved hs.mirrored (fun _ _ => 0)
      (fun instanceId asset => -op.coverage instanceId asset)
      (fun instanceId i amount hi hamt => ?_) fun instanceId hnone asset => ⟨rfl, ?_⟩
    · rw [hs.release_eq heps hop hopen hi hamt
        (congrArg Book.reserved (hs.mirrored instanceId i hi))]
      simp only [setReserved, moved, add_zero, hs.mirrored instanceId i hi]
    · rw [coverage_eq_zero hnone, neg_zero]

/-- A reservation changes nothing, or it admits a new operation. -/
lemma reserveMaintenanceOperationInner_cases (hex : PublishesAmounts cfg intent) {env : Environment}
    {out} (hout : reserveMaintenanceOperationInner cfg s operationId env intent = out) :
    out.1 = s ∧ (out.2 = .ok () → (s.maintenanceOps.lookup operationId).isSome) ∨
      s.maintenanceOps.lookup operationId = none ∧ out.2 = .ok () ∧
        out.1.maintenanceOps =
          s.maintenanceOps.insert operationId { toMaintenanceIntent := intent } ∧
        Moves cfg.tol s out.1 := by
  subst hout
  unfold reserveMaintenanceOperationInner
  split
  · exact .inl ⟨rfl, nofun⟩
  split
  · exact .inl ⟨rfl, nofun⟩
  next hinv =>
  have hsized : intent.Sized cfg.tol :=
    sized_of_valid (Bool.eq_false_iff.2 hinv) hex
  have hdrop scope : s.dropEconomicState cfg scope = s :=
    hs.mirrored.dropEconomicState heps
  rw [hs.mirrored.lockEconomicState]
  unfold admitOperation
  cases hop : s.maintenanceOps.lookup operationId with
  | some prior =>
    dsimp only
    split <;> exact .inl ⟨hdrop _, fun _ => rfl⟩
  | none =>
    dsimp only
    split
    · exact .inl ⟨hdrop _, nofun⟩
    split
    · exact .inl ⟨hdrop _, nofun⟩
    split
    · exact .inl ⟨hdrop _, nofun⟩
    split
    · exact .inl ⟨hdrop _, nofun⟩
    refine .inr ⟨rfl, rfl, rfl, ?_⟩
    refine .admitted hop rfl hsized ⟨rfl, ?_, fun _ => (add_zero _).symm⟩
    have hnn {instanceId : String} {i : Instance}
        (hi : s.instances.lookup instanceId = some i) asset :
        0 ≤ i.shard.reserved asset + intent.coverage instanceId asset := by
      have hrsv : 0 ≤ i.shard.reserved asset := by
        rw [hs.covered instanceId i hi asset]
        exact sumBy_nonneg (hs.covers_nonneg heps)
      exact add_nonneg hrsv
        (mul_nonneg (Nat.cast_nonneg _) (hsized.allocated_nonneg heps instanceId))
    refine MaintenanceState.lookup_dropEconomicState ?_
      (fun instanceId i hi => publishable_zero (hs.nonneg instanceId i hi))
      fun instanceId i hi => publishable_coverage hsized heps instanceId 1
        (fun asset => by push_cast; rw [one_mul]) (hnn hi)
    refine lookup_allocate_moved hs.mirrored (fun _ _ => 0) intent.coverage
      (fun instanceId i amount hi hamt => ?_)
      fun instanceId hnone asset => ⟨rfl, coverage_eq_zero hnone asset⟩
    rw [reserve_eq]
    simp only [setReserved, moved, add_zero,
      hs.mirrored instanceId i hi, coverage,
      allocated, hamt, getD_some]

/-- A confirmation changes nothing, or it settles an open operation. -/
lemma confirmMaintenanceOperation_cases {out}
    (hout : confirmMaintenanceOperation cfg s operationId = out)
    (hex : ∀ op, s.maintenanceOps.lookup operationId = some op → op.status.isOpen = true →
      out.2 = .ok () → Affords s op) :
    out.1 = s ∧ (out.2 = .ok () → ∃ op, s.maintenanceOps.lookup operationId = some op ∧
        op.status = .confirmed) ∨
      ∃ op, s.maintenanceOps.lookup operationId = some op ∧ op.status.isOpen = true ∧
        out.2 = .ok () ∧ out.1.maintenanceOps.lookup operationId =
          some { op with status := .confirmed, detail := none } ∧ Moves cfg.tol s out.1 := by
  subst hout
  unfold confirmMaintenanceOperation at hex ⊢
  cases hop : s.maintenanceOps.lookup operationId with
  | none => exact .inl ⟨rfl, nofun⟩
  | some op =>
    have hex := hex op hop
    rw [hop] at hex
    dsimp only at hex ⊢
    have hdrop scope : s.dropEconomicState cfg scope = s :=
      hs.mirrored.dropEconomicState heps
    rw [hs.mirrored.lockEconomicState] at hex ⊢
    unfold settleOperation at hex ⊢
    split
    · next hconf => exact .inl ⟨hdrop _, fun _ => ⟨op, rfl, hconf⟩⟩
    next hconf =>
    split
    · exact .inl ⟨hdrop _, nofun⟩
    next hfail =>
    split
    · exact .inl ⟨hdrop _, nofun⟩
    next htx =>
    split
    · exact .inl ⟨hdrop _, nofun⟩
    next hcov =>
    have hopen := isOpen_of_ne hconf hfail
    have haff : Affords s op := by
      refine hex hopen ?_
      rw [if_neg hconf, if_neg hfail, if_neg htx, hcov]
    refine .inr ⟨op, rfl, hopen, rfl, lookup_insert _,
      .confirmed hop hopen ?_ ?_ haff ⟨rfl, ?_, ?_⟩⟩
    · rfl
    · rfl
    · refine MaintenanceState.lookup_dropEconomicState (hs.lookup_settled heps hop hopen)
        (fun instanceId i hi => ⟨fun asset hasset => ?_,
          fun asset => (hs.sized _ _ hop).publishes heps, haff instanceId i hi⟩)
        fun instanceId i hi => hs.publishable_release heps hop hopen hi
      rw [effect, op.sign_eq_zero hasset]
      simp
    · intro asset
      exact congrFun op.exchangePhysical_eq asset

lemma Moved.abortMaintenanceAdmission (operationId detail : String) :
    Moved cfg.tol s (abortMaintenanceAdmission cfg s operationId detail) := by
  unfold Maintenance.abortMaintenanceAdmission
  split
  · exact .refl
  · split
    · exact failMaintenanceOperation hs heps operationId detail
    · exact .refl

lemma Moved.reserveMaintenanceOperation (env : Environment) (adm : Admission) (operationId : String)
    (hex : PublishesAmounts cfg intent) :
    Moved cfg.tol s (reserveMaintenanceOperation cfg s env adm operationId intent).1 := by
  have hinner :
    Moved cfg.tol s (reserveMaintenanceOperationInner cfg s operationId env intent).1 := by
    rcases reserveMaintenanceOperationInner_cases hs heps hex rfl with
      ⟨hsame, -⟩ | ⟨-, -, -, hmoves⟩
    · rw [hsame]
    · exact .single hmoves
  have hadm := hs.moved hinner
  unfold Maintenance.reserveMaintenanceOperation
  dsimp only
  split
  · exact .refl
  · exact hinner.trans (abortMaintenanceAdmission hadm heps _ _)
  · split
    · exact hinner
    · exact hinner.trans (failMaintenanceOperation hadm heps _ _)
  · dsimp only
    split
    · exact hinner.trans (failMaintenanceOperation hadm heps _ _)
    · exact hinner
  · exact hinner

omit hs heps in
/-- A command that is run late still moves the state, and one that is refused does not. -/
lemma Moved.deliver {ε : Type} (reply : OwnerReply) (wrap : String → ε)
    {run : MaintenanceState × Except ε Unit} (h : Moved cfg.tol s run.1) :
    Moved cfg.tol s (reply.deliver wrap s run).1 := by
  cases reply with
  | answered => exact h
  | late error => exact h
  | refused error => exact .refl

/-- What a call does. -/
lemma Moved.call {call : MaintenanceCall}
    (hex : cfg.Exact s call) : Moved cfg.tol s (s.call cfg call).1 := by
  cases call with
  | reserve env adm operationId intent =>
    exact reserveMaintenanceOperation hs heps env adm operationId hex
  | submitted reply operationId txId =>
    exact .deliver reply id (markMaintenanceOperationSubmitted hs operationId txId)
  | uncertain operationId detail => exact markMaintenanceOperationUncertain hs operationId detail
  | fail operationId detail => exact failMaintenanceOperation hs heps operationId detail
  | confirm reply operationId =>
    refine .deliver reply ReservationError.invalidOrder ?_
    rcases confirmMaintenanceOperation_cases hs heps rfl hex with
      ⟨hsame, -⟩ | ⟨_, _, _, _, _, hmoves⟩
    · rw [hsame]
    · exact .single hmoves

end Calls

end HexAgent.Maintenance
