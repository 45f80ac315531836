import HexAgent.Wal.Job

/-!
# Coalescing is transparent

A job is dropped from a batch if a later job of the same row and kind follows before any barrier.
All changes of typed jobs are absolute, so dropping it makes no difference as soon as the later job
writes everything that the dropped one writes (`Covers`). It does if both name the same instance,
token and order and carry their order row (`Consistent`).
-/

namespace HexAgent.Wal

open HexAgent.Account List Option VirtualLifecyclePersistenceDelta View

variable {rows : RowFormat} {later : PersistenceJob}

/-! ## Jobs as actions on views -/

/-- What a job does to a view. -/
def runJob (rows : RowFormat) (w : View) (job : PersistenceJob) : Option View :=
  (materializePersistenceJob rows job).toOption.bind (·.foldlM View.apply w)

/-- Changes of a job, or none if it cannot be materialized. -/
def jobChanges (rows : RowFormat) (job : PersistenceJob) : List PersistenceWalChange :=
  (materializePersistenceJob rows job).toOption.getD []

/-- Materializing all jobs first makes no difference. -/
lemma view_applyJobs (jobs : List PersistenceJob) (state : Json) :
    (applyJobs rows state jobs).toOption.map durableView =
      jobs.foldlM (runJob rows) (durableView state) := by
  have happ : (applyJobs rows state jobs).toOption.map durableView =
      (materializePersistenceJobs rows jobs).toOption.bind
        (·.foldlM apply (durableView state)) := by
    unfold applyJobs
    cases materializePersistenceJobs rows jobs with
    | error e => rfl
    | ok changes =>
      change (changes.foldlM applyPersistenceWalChange state).toOption.map durableView =
        changes.foldlM apply (durableView state)
      induction changes generalizing state with
      | nil => rfl
      | cons change changes ih =>
        rw [foldlM_cons, foldlM_cons, ← view_applyPersistenceWalChange]
        cases happ : applyPersistenceWalChange state change with
        | error e => rfl
        | ok next => exact ih next
  rw [happ]
  clear happ
  generalize durableView state = w
  induction jobs generalizing w with
  | nil => rfl
  | cons job jobs ih =>
    rw [foldlM_cons, runJob]
    unfold materializePersistenceJobs at ih ⊢
    rw [mapM_cons]
    cases materializePersistenceJob rows job with
    | error e => rfl
    | ok changes =>
      show _ = (changes.foldlM apply w).bind _
      rw [← bind_congr fun t _ => ih t]
      cases jobs.mapM (materializePersistenceJob rows) with
      | error e =>
        show none = (changes.foldlM apply w).bind fun _ => none
        rw [bind_fun_none]
      | ok rest =>
        show (changes ++ rest.flatten).foldlM apply w = _
        rw [foldlM_append]
        rfl

/-! ## Typed jobs -/

lemma absolute_mapEntry {map key : String} {value : Option Json} (h : RowPath [map, key]) :
    (persistenceWalMapEntry map key value).Absolute := by
  cases value <;> exact h

lemma absolute_setMembership {set member : String} {present : Bool} (h : [set] ∈ auditSets) :
    (persistenceWalSetMembership set member present).Absolute := by
  cases present <;> exact h

lemma slot_mapEntry (map key : String) (value : Option Json) :
    (persistenceWalMapEntry map key value).slot = ([map, key], none) := by
  cases value <;> rfl

lemma slot_setMembership (set member : String) (present : Bool) :
    (persistenceWalSetMembership set member present).slot = ([set], some (.str member)) := by
  cases present <;> rfl

variable {job : PersistenceJob} {w : View}

/-- The changes of a typed job are absolute. -/
lemma absolute_jobChanges (h : job.rowKey.isSome) :
    ∀ change ∈ jobChanges rows job, change.Absolute := by
  obtain ⟨generation, payload⟩ := job
  cases payload with
  | reservation delta =>
    intro change hchange
    change change ∈ delta.materialize rows at hchange
    simp only [ReservationPersistenceDelta.materialize, mem_cons, not_mem_nil, or_false] at hchange
    rcases hchange with rfl | rfl | rfl | rfl | rfl | rfl | rfl
    · exact .reservedCash _
    · exact absolute_mapEntry (.order _)
    · exact .reservedPosition _ _
    · exact absolute_mapEntry (.oid _)
    all_goals exact absolute_setMembership (by decide)
  | virtualLifecycle delta =>
    intro change hchange
    change change ∈ delta.materialize rows at hchange
    rw [materialize, mem_append, mem_append] at hchange
    rcases hchange with (hrow | hpos) | hmark
    · simp only [mem_cons, not_mem_nil, or_false] at hrow
      rcases hrow with rfl | rfl
      · exact .reservedCash _
      · exact absolute_mapEntry (.order _)
    · split at hpos
      · cases hpos
      · simp only [mem_cons, not_mem_nil, or_false] at hpos
        rcases hpos with rfl | rfl
        · exact .reservedPosition _ _
        · exact absolute_mapEntry (.oid _)
    · simp only [mem_cons, not_mem_nil, or_false] at hmark
      rcases hmark with rfl | rfl | rfl <;> exact absolute_setMembership (by decide)
  | virtualTrade delta =>
    intro change hchange
    change change ∈ delta.materialize rows at hchange
    simp only [VirtualTradePersistenceDelta.materialize, mem_cons, not_mem_nil, or_false] at hchange
    rcases hchange with rfl | rfl | rfl | rfl | rfl | rfl | rfl | rfl | rfl | rfl
    · exact .cash _
    · exact .reservedCash _
    · exact .position _ _
    · exact .reservedPosition _ _
    · exact absolute_mapEntry (.order _)
    · exact absolute_mapEntry (.trade _)
    · exact absolute_setMembership (by decide)
    · exact absolute_setMembership (by decide)
    · exact absolute_setMembership (by decide)
    · exact .ledgerGeneration
  | unresolvedTradeMatchTime tradeKey matchTimeSecs =>
    intro change hchange
    rcases mem_singleton.1 hchange with rfl
    exact absolute_mapEntry (.unresolved _)
  | _ => cases h

/-! ## Dropping covered jobs -/

/-- The later job writes everything that the job writes. -/
def Covers (rows : RowFormat) (job later : PersistenceJob) : Prop :=
  ∀ change ∈ jobChanges rows job, change.slot ∈ (jobChanges rows later).map (·.slot)

/-- Jobs up to the next barrier. -/
def untilBarrier (jobs : List PersistenceJob) : List PersistenceJob :=
  jobs.takeWhile fun job => job.rowKey.isSome

/-- A job is covered by all later jobs of its row and kind before the next barrier. -/
def Coalescible (rows : RowFormat) : List PersistenceJob → Prop
  | [] => True
  | job :: jobs =>
    (∀ later ∈ untilBarrier jobs, job.rowKey.isSome → later.rowKey = job.rowKey →
      Covers rows job later) ∧ Coalescible rows jobs

/-- A barrier does not put a member into an audit set twice. -/
def PersistenceJob.KeepsSets (rows : RowFormat) (job : PersistenceJob) : Prop :=
  job.rowKey = none → ∀ change ∈ jobChanges rows job, change.KeepsSets

lemma runJob_eq_some {w' : View} (h : runJob rows w job = some w') :
    (jobChanges rows job).foldlM apply w = some w' := by
  obtain ⟨changes, hchanges, happ⟩ := bind_eq_some_iff.1 h
  rwa [jobChanges, hchanges]

lemma View.Distinct.runJob {w' : View} (hw : w.Distinct) (hjob : job.KeepsSets rows)
    (h : Wal.runJob rows w job = some w') : w'.Distinct := by
  have happ := runJob_eq_some h
  refine hw.foldlM (fun change hchange => ?_) happ
  cases hkey : job.rowKey with
  | none => exact .inr (hjob hkey change hchange)
  | some key => exact .inl (absolute_jobChanges (by rw [hkey]; rfl) change hchange)

variable {jobs : List PersistenceJob}

/-- Typed jobs are run by applying their changes. -/
lemma foldlM_typed (h : ∀ job ∈ jobs, job.rowKey.isSome) (w : View) :
    jobs.foldlM (runJob rows) w = (jobs.flatMap (jobChanges rows)).foldlM apply w := by
  induction jobs generalizing w with
  | nil => rfl
  | cons job jobs ih =>
    have hjob : runJob rows w job = (jobChanges rows job).foldlM apply w := by
      have hsome := h job (.head _)
      obtain ⟨gen, payload⟩ := job
      cases payload <;> first | rfl | cases hsome
    rw [foldlM_cons, flatMap_cons, foldlM_append, hjob]
    exact bind_congr fun t _ => ih (fun j hj => h j (.tail _ hj)) t

/-- A job that is covered before the next barrier makes no difference. -/
lemma foldlM_cons_of_covers (hw : w.Distinct) (hjob : job.rowKey.isSome)
    (hlater : later ∈ untilBarrier jobs) (hcov : Covers rows job later) :
    (job :: jobs).foldlM (runJob rows) w = jobs.foldlM (runJob rows) w := by
  have htyped : ∀ j ∈ untilBarrier jobs, j.rowKey.isSome := fun j hj => by
    simpa using mem_takeWhile_imp hj
  have hsplit : jobs = untilBarrier jobs ++ jobs.dropWhile fun job => job.rowKey.isSome :=
    takeWhile_append_dropWhile.symm
  rw [hsplit, ← cons_append, foldlM_append, foldlM_append]
  congr 1
  rw [foldlM_typed (forall_mem_cons.2 ⟨hjob, htyped⟩), foldlM_typed htyped]
  refine lastWriteWins.foldlM_append_of_keys hw (absolute_jobChanges hjob)
    (fun change hchange => ?_)
    fun change hchange => ?_
  · obtain ⟨j, hj, hin⟩ := mem_flatMap.1 hchange
    exact absolute_jobChanges (htyped j hj) change hin
  · obtain ⟨change', hchange', hslot⟩ := mem_map.1 (hcov change hchange)
    rw [← hslot]
    exact mem_map_of_mem (mem_flatMap.2 ⟨later, hlater, hchange'⟩)

/-- The kept jobs act on views as all jobs do, and the seen rows have a job before the next
barrier. -/
lemma foldlM_coalesce (h : Coalescible rows jobs) (hsets : ∀ job ∈ jobs, job.KeepsSets rows) :
    (∀ w, w.Distinct → (coalescePersistenceJobs jobs).foldlM (runJob rows) w =
      jobs.foldlM (runJob rows) w) ∧
    ∀ key ∈ (jobs.foldr coalesceStep (∅, [])).1, ∃ later ∈ untilBarrier jobs,
      later.rowKey = some key := by
  induction jobs with
  | nil => exact ⟨fun _ _ => rfl, fun key hkey => absurd hkey (Finset.notMem_empty key)⟩
  | cons job jobs ih =>
    obtain ⟨hrun, hseen⟩ := ih h.2 fun j hj => hsets j (.tail _ hj)
    have hkept w (hw : w.Distinct) :
        (job :: coalescePersistenceJobs jobs).foldlM (runJob rows) w =
          (job :: jobs).foldlM (runJob rows) w := by
      rw [foldlM_cons, foldlM_cons]
      exact bind_congr fun t ht => hrun t (hw.runJob (hsets job (.head _)) ht)
    rw [coalescePersistenceJobs, foldr_cons]
    generalize hfold : jobs.foldr coalesceStep (∅, []) = folded at hseen
    have hfolded : coalescePersistenceJobs jobs = folded.2 := by rw [coalescePersistenceJobs, hfold]
    rw [hfolded] at hkept hrun
    unfold coalesceStep
    cases hkey : job.rowKey with
    | none =>
      exact ⟨hkept, fun key hmem => absurd hmem (Finset.notMem_empty key)⟩
    | some key =>
      have huntil : untilBarrier (job :: jobs) = job :: untilBarrier jobs := by
        rw [untilBarrier, takeWhile_cons_of_pos (by rw [hkey]; rfl), ← untilBarrier]
      have hold other (hne : other ∈ folded.1) :
          ∃ later ∈ untilBarrier (job :: jobs), later.rowKey = some other := by
        obtain ⟨later, hlater, hrow⟩ := hseen other hne
        exact ⟨later, by rw [huntil]; exact .tail _ hlater, hrow⟩
      dsimp only
      split
      · -- The job is dropped, and covered by the one that was seen.
        next hin =>
        obtain ⟨later, hlater, hrow⟩ := hseen key hin
        have hsome : job.rowKey.isSome := by rw [hkey]; rfl
        refine ⟨fun w hw => ?_, hold⟩
        rw [hrun w hw, foldlM_cons_of_covers hw hsome hlater
          (h.1 later hlater hsome (hrow.trans hkey.symm))]
      · refine ⟨hkept, fun other hne => ?_⟩
        rcases Finset.mem_insert.1 hne with rfl | hne
        · exact ⟨job, by rw [huntil]; exact .head _, hkey⟩
        · exact hold other hne

/-! ## Consistent batches -/

/-- What a job of an order names. A job without its order row names no order id. -/
structure JobNames where
  instanceId : String
  tokenId : Option String
  clientOrderId : String
  orderId : Option String
  deriving DecidableEq

/-- What a job names, if it is about an order. -/
def PersistenceJob.names (job : PersistenceJob) : Option JobNames :=
  match job.payload with
  | .reservation delta =>
    some ⟨delta.instanceId, some delta.order.tokenId, delta.clientOrderId, some delta.order.orderId⟩
  | .virtualLifecycle delta =>
    some ⟨delta.instanceId, delta.reservedPosition.map (·.1), delta.clientOrderId,
      delta.order.map (·.orderId)⟩
  | .virtualTrade delta =>
    some ⟨delta.instanceId, some delta.tokenId, delta.clientOrderId, delta.order.map (·.orderId)⟩
  | _ => none

/-- Trade key of a trade job. -/
def PersistenceJob.tradeKey (job : PersistenceJob) : Option String :=
  match job.payload with
  | .virtualTrade delta => some delta.tradeKey
  | _ => none

/-- Jobs of one client order id or of one trade key name the same instance, token and order. -/
def Consistent (jobs : List PersistenceJob) : Prop :=
  ∀ job ∈ jobs, ∀ later ∈ jobs, ∀ names ∈ job.names, ∀ names' ∈ later.names,
    (names.clientOrderId = names'.clientOrderId ∨
      job.tradeKey.isSome ∧ job.tradeKey = later.tradeKey) → names = names'

lemma slot_set (path : List String) (value : Json) :
    (PersistenceWalChange.set path value).slot = (path, none) := rfl

/-- Jobs of one row write the same. -/
lemma Consistent.slots_eq (h : Consistent jobs) (hmem : job ∈ jobs) (hlater : later ∈ jobs)
    (hjob : job.rowKey.isSome) (hkey : later.rowKey = job.rowKey) :
    (jobChanges rows job).map (·.slot) = (jobChanges rows later).map (·.slot) := by
  have hagree := h job hmem later hlater
  obtain ⟨generation, payload⟩ := job
  obtain ⟨generation', payload'⟩ := later
  cases payload with
  | reservation delta =>
    cases payload' with
    | reservation delta' =>
      obtain ⟨hinst, htok, hcoid, hord⟩ := JobNames.mk.inj
        (hagree _ rfl _ rfl (.inl (Prod.mk.inj (some.inj hkey)).2.symm))
      change (delta.materialize rows).map (·.slot) = (delta'.materialize rows).map (·.slot)
      simp only [ReservationPersistenceDelta.materialize, map_cons, map_nil, slot_set,
        slot_mapEntry, slot_setMembership, hinst, some.inj htok, hcoid,
        some.inj hord]
    | _ => cases hkey
  | virtualLifecycle delta =>
    cases payload' with
    | virtualLifecycle delta' =>
      obtain ⟨hinst, htok, hcoid, hord⟩ := JobNames.mk.inj
        (hagree _ rfl _ rfl (.inl (Prod.mk.inj (some.inj hkey)).2.symm))
      have hoid : (delta.order.map fun order => normalizeOrderId order.orderId) =
          delta'.order.map fun order => normalizeOrderId order.orderId := by
        have h := congrArg (Option.map normalizeOrderId) hord
        rwa [Option.map_map, Option.map_map] at h
      change (delta.materialize rows).map (·.slot) = (delta'.materialize rows).map (·.slot)
      simp only [materialize, map_append, map_cons,
        map_nil, slot_set, slot_mapEntry, slot_setMembership, hinst, hcoid]
      cases hpos : delta.reservedPosition with
      | none =>
        rw [hpos] at htok
        rw [map_eq_none_iff.1 htok.symm]
      | some pos =>
        rw [hpos] at htok
        obtain ⟨pos', hpos', hfst⟩ := map_eq_some_iff.1 htok.symm
        rw [hpos']
        simp only [map_cons, map_nil, slot_set, slot_mapEntry, hoid, hfst]
    | _ => cases hkey
  | virtualTrade delta =>
    cases payload' with
    | virtualTrade delta' =>
      have htr : delta'.tradeKey = delta.tradeKey := (Prod.mk.inj (some.inj hkey)).2
      obtain ⟨hinst, htok, hcoid, -⟩ := JobNames.mk.inj
        (hagree _ rfl _ rfl (.inr ⟨rfl, congrArg some htr.symm⟩))
      change (delta.materialize rows).map (·.slot) = (delta'.materialize rows).map (·.slot)
      simp only [VirtualTradePersistenceDelta.materialize, map_cons, map_nil, slot_set,
        slot_mapEntry, slot_setMembership, hinst, some.inj htok, hcoid, htr]
    | _ => cases hkey
  | unresolvedTradeMatchTime tradeKey matchTimeSecs =>
    cases payload' with
    | unresolvedTradeMatchTime tradeKey' matchTimeSecs' =>
      have htr : tradeKey' = tradeKey := (Prod.mk.inj (some.inj hkey)).2
      change [(persistenceWalMapEntry _ tradeKey _).slot] =
        [(persistenceWalMapEntry _ tradeKey' _).slot]
      rw [slot_mapEntry, slot_mapEntry, htr]
    | _ => cases hkey
  | _ => cases hjob

lemma Consistent.tail (h : Consistent (job :: jobs)) : Consistent jobs := fun a ha b hb =>
  h a (.tail _ ha) b (.tail _ hb)

lemma Consistent.coalescible (h : Consistent jobs) : Coalescible rows jobs := by
  induction jobs with
  | nil => trivial
  | cons job jobs ih =>
    refine ⟨fun later hlater hjob hkey change hchange => ?_, ih h.tail⟩
    have hmem : later ∈ job :: jobs :=
      mem_cons_of_mem _ ((takeWhile_sublist _).subset hlater)
    rw [← h.slots_eq (.head _) hmem hjob hkey]
    exact mem_map_of_mem hchange

/-- Applying the kept jobs of a batch gives the same tree as applying all of them, up to the order
inside the audit sets. -/
theorem coalesce_transparent (rows : RowFormat) (state : Json) (jobs : List PersistenceJob)
    (hstate : SetsNodup state) (hjobs : Consistent jobs)
    (hsets : ∀ job ∈ jobs, job.KeepsSets rows) :
    (applyJobs rows state (coalescePersistenceJobs jobs)).toOption.map durableView =
      (applyJobs rows state jobs).toOption.map durableView := by
  rw [view_applyJobs, view_applyJobs]
  exact (foldlM_coalesce hjobs.coalescible hsets).1 _ hstate.distinct

/-! ### A batch that drops a job -/

/-- Durable tree of one instance without orders. -/
def sampleTree : Json :=
  .obj [("fee_attribution_pending", .arr []),
    ("instances", .obj [("maker", .obj [("reserved_cash", amountValue 0),
      ("reserved_positions", .obj [])])]),
    ("oid_to_coid", .obj []), ("orders", .obj []), ("recovery_pending_orders", .arr []),
    ("routine_cancel_audits", .arr []), ("startup_query_repair_orders", .arr [])]

/-- Rows that show their client order id only. -/
def sampleRows : RowFormat where
  order order := .str order.clientOrderId
  trade trade := .str trade.ownership.clientOrderId

def sampleOrder : OrderOwnership where
  accountId := "account"
  instanceId := "maker"
  clientOrderId := "c1"
  orderId := "0xAb"
  tokenId := "UP"
  side := .buy
  quantity := 1
  price := 1 / 2
  reservedCash := 1 / 2
  reservedQuantity := 0

/-- A lifecycle job of the sample order. -/
def sampleLifecycle (generation : ℕ) (reservedCash : ℚ) (recoveryPending : Bool) : PersistenceJob :=
  ⟨generation, .virtualLifecycle ⟨"maker", reservedCash, "c1", some sampleOrder, some ("UP", 0),
    recoveryPending, false, false⟩⟩

/-- An order is reserved, becomes pending and is released. -/
def sampleJobs : List PersistenceJob :=
  [⟨1, .reservation ⟨"maker", "c1", sampleOrder, 1 / 2, 0⟩⟩, sampleLifecycle 2 (1 / 2) true,
    sampleLifecycle 3 0 false]

/-- The first lifecycle job is dropped. -/
theorem coalesce_transparent_lifecycle :
    (coalescePersistenceJobs sampleJobs).map (·.generation) = [1, 3] ∧
    (applyJobs sampleRows sampleTree sampleJobs).toOption.isSome ∧
    (applyJobs sampleRows sampleTree (coalescePersistenceJobs sampleJobs)).toOption.map
    durableView =
      (applyJobs sampleRows sampleTree sampleJobs).toOption.map durableView := by
  refine ⟨by decide +kernel, by decide +kernel,
    coalesce_transparent sampleRows sampleTree sampleJobs ?_ ?_ ?_⟩
  · intro p hp items hitems
    have hempty : sampleTree.get p = some (.arr []) := by
      simp only [auditSets, mem_cons, not_mem_nil, or_false] at hp
      rcases hp with rfl | rfl | rfl | rfl <;> decide +kernel
    rw [hempty] at hitems
    cases hitems
    exact nodup_nil
  · unfold Consistent
    decide +kernel
  · intro job hjob hbarr
    have hsome : ∀ job ∈ sampleJobs, job.rowKey.isSome := by decide +kernel
    exact absurd hbarr (isSome_iff_ne_none.1 (hsome job hjob))

end HexAgent.Wal
