import HexAgent.History.Hints

/-!
# Hints have no false negatives

Once a store has returned, its filter bits are set, its generation is published, and every
certificate for one of its keys is of an older generation. This stays so: a certificate is only
begun after a lookup found nothing, a lookup finds what is stored, and a reopened archive reads
bits and generation from disk and has no certificates.
-/

namespace HexAgent.History

open Function ArchiveState List Nat VerifiedAbsence ColdTask

variable {ρ : Type} {identity : String}

/-! ## The table on disk -/

/-- Every row is under the base of its key, and its bits are in the filter. -/
structure Disk.Consistent (d : Disk ρ) : Prop where
  base : ∀ row ∈ d.rows,
    row.baseKey = if row.kind = tradeKind then baseTradeKey row.key else row.key
  bits : ∀ row ∈ d.rows, ∀ bit ∈ filterIndices row.kind row.baseKey, d.filter bit = true

/-- A row with this key is in the table. -/
def Disk.Has (d : Disk ρ) (kind : UInt8) (baseKey : String) : Prop :=
  ∃ row ∈ d.rows, row.kind = kind ∧ row.baseKey = baseKey

variable {rows : ArchiveRows ρ}

section Store

variable [DecidableEq ρ] {ctx : ArchiveContext ρ} {table table' : List (ProofRow ρ)}
  {row : ProofRow ρ}

/-- Storing a row keeps the others, adds at most this one, and leaves one with its key. -/
lemma storeRow_ok (h : storeRow ctx table row = .ok table') :
    (∀ r ∈ table, r ∈ table') ∧ (∀ r ∈ table', r ∈ table ∨ r = row) ∧
      ∃ r ∈ table', r.kind = row.kind ∧ r.key = row.key := by
  unfold storeRow at h
  split at h
  · cases h
    exact ⟨fun r hr => mem_append_left _ hr,
      fun r hr => (mem_append.1 hr).imp id mem_singleton.1,
      row, mem_append_right _ (mem_singleton_self row), rfl, rfl⟩
  next prev hfind =>
  have hmem := mem_of_find?_eq_some hfind
  have hkey := find?_some hfind
  simp only [Bool.and_eq_true, decide_eq_true_eq] at hkey
  -- In both accepted cases the table stays as it is.
  split at h
  · cases h
    exact ⟨fun r hr => hr, fun r hr => .inl hr, prev, hmem, hkey⟩
  split at h
  · split at h
    · cases h
      exact ⟨fun r hr => hr, fun r hr => .inl hr, prev, hmem, hkey⟩
    · cases h
  · cases h

lemma storeRows_ok {rows : List (ProofRow ρ)} (h : rows.foldlM (storeRow ctx) table = .ok table') :
    (∀ r ∈ table, r ∈ table') ∧ (∀ r ∈ table', r ∈ table ∨ r ∈ rows) ∧
      ∀ row ∈ rows, ∃ r ∈ table', r.kind = row.kind ∧ r.key = row.key := by
  induction rows generalizing table with
  | nil =>
    cases h
    exact ⟨fun r hr => hr, fun r hr => .inl hr, nofun⟩
  | cons row rows ih =>
    rw [foldlM_cons] at h
    cases hfirst : storeRow ctx table row with
    | error text =>
      rw [hfirst] at h
      cases h
    | ok middle =>
      rw [hfirst] at h
      obtain ⟨hkeep, honly, hhas⟩ := storeRow_ok hfirst
      obtain ⟨hkeep', honly', hhas'⟩ := ih h
      refine ⟨fun r hr => hkeep' r (hkeep r hr), fun r hr => ?_, fun r hr => ?_⟩
      · rcases honly' r hr with hr | hr
        · exact (honly r hr).imp id fun heq : r = row => heq ▸ mem_cons_self
        · exact .inr (.tail _ hr)
      · rcases mem_cons.1 hr with rfl | hr
        · obtain ⟨found, hfound, hkey⟩ := hhas
          exact ⟨found, hkeep' found hfound, hkey⟩
        · exact hhas' r hr

omit [DecidableEq ρ] in
lemma ArchiveRows.entries_base (h : row ∈ rows.entries) :
    row.baseKey = if row.kind = tradeKind then baseTradeKey row.key else row.key := by
  rcases mem_append.1 h with h | h
  · obtain ⟨entry, -, rfl⟩ := mem_map.1 h
    rfl
  · obtain ⟨entry, -, rfl⟩ := mem_map.1 h
    rfl

/-- A committed transaction keeps the table consistent, raises the generation and has the rows. -/
lemma Disk.store_ok {d d' : Disk ρ} (hd : d.Consistent) (h : d.store ctx rows = .ok d') :
    d'.Consistent ∧ d'.generation = d.generation + 1 ∧ (∀ row ∈ d.rows, row ∈ d'.rows) ∧
      ∀ row ∈ rows.entries, d'.Has row.kind row.baseKey := by
  unfold Disk.store at h
  cases htable : rows.entries.foldlM (storeRow ctx) d.rows with
  | error text =>
    rw [htable] at h
    cases h
  | ok table =>
    rw [htable] at h
    obtain ⟨hkeep, honly, hhas⟩ := storeRows_ok htable
    change (if d.generation + 1 < 2 ^ 64 then _ else _) = _ at h
    split at h
    · cases h
      have hbase : ∀ row ∈ table,
          row.baseKey = if row.kind = tradeKind then baseTradeKey row.key else row.key :=
        fun row hrow => (honly row hrow).elim (hd.base row) ArchiveRows.entries_base
      refine ⟨⟨hbase, fun row hrow bit hbit => ?_⟩, rfl, hkeep, fun row hrow => ?_⟩
      · rw [Bool.or_eq_true, decide_eq_true_eq]
        exact (honly row hrow).imp (fun hold => hd.bits row hold bit hbit)
          fun hnew => mem_flatMap.2 ⟨row, hnew, hbit⟩
      · obtain ⟨found, hfound, hkind, hkey⟩ := hhas row hrow
        refine ⟨found, hfound, hkind, ?_⟩
        rw [hbase found hfound, ArchiveRows.entries_base hrow, hkind, hkey]
    · cases h

omit [DecidableEq ρ] in
/-- A lookup finds what is stored, unless it fails. -/
lemma load_ne_nil {d : Disk ρ} {filter : Filter} {kind : UInt8} {key : String} {nowMs : ℕ}
    (hkey : key ≠ "") (hbits : ∀ bit ∈ filterIndices kind key, filter bit = true)
    (hd : d.Has kind key) : load ctx filter d kind key nowMs ≠ .ok [] := by
  have hmay : mayContain filter kind key = true := by
    simp only [mayContain, Bool.and_eq_true, decide_eq_true_eq, all_eq_true]
    exact ⟨hkey, hbits⟩
  obtain ⟨row, hrow, hkind, hbase⟩ := hd
  have hfound : row ∈ d.rows.filter fun row => row.kind = kind && row.baseKey = key := by
    simp [hrow, hkind, hbase]
  unfold load
  rw [if_pos hmay]
  generalize d.rows.filter _ = found at hfound
  cases found with
  | nil => cases hfound
  | cons first rest =>
    intro hload
    rw [take_succ_cons, loadRows, if_neg (by decide)] at hload
    cases hcheck : checkRow ctx kind key nowMs first with
    | error text =>
      rw [hcheck] at hload
      cases hload
    | ok proof =>
      rw [hcheck] at hload
      cases hrest : loadRows ctx kind key nowMs (0 + 1) (rest.take maxLookupRows) with
      | error text | ok others =>
        change (loadRows ctx kind key nowMs (0 + 1) (rest.take maxLookupRows) >>= _) = _ at hload
        rw [hrest] at hload
        cases hload

end Store

/-! ## The invariant -/

/-- A slot or a certificate is about a key whose lookup found nothing. -/
def Searched (lookups : List Lookup) (c : Certificate) : Prop :=
  ∃ l ∈ lookups, l.found = 0 ∧ c.kind = l.kind ∧
    c.bytes = absenceBytes l.kind (absenceKey l.kind l.identity)

/-- No store of the certificate's key has returned. -/
def Unstored (returned : List StoredKey) (c : Certificate) : Prop :=
  ∀ k ∈ returned, k.baseKey ≠ "" → k.kind = c.kind → keyBytes k.baseKey ≠ c.bytes

/-- The certificate that the cold owner is writing into a slot, with the number of its cells that
are written. -/
def ColdTask.writing (i : Fin absenceSlots) : ColdTask ρ → Option (Certificate × ℕ)
  | .record slot c (.store field) => if slot = i then some (c, field.rank) else none
  | .record slot c .close => if slot = i then some (c, 4 + c.bytes.length) else none
  | _ => none

/-- A slot that is not being written is empty or has a certificate that was searched for. -/
def SlotOk (lookups : List Lookup) (slot : VerifiedAbsence) : Option (Certificate × ℕ) → Prop
  | some (c, n) => slot.sequence % 2 = 1 ∧ slot.Agrees c n
  | none => slot.sequence % 2 = 0 ∧
      (slot.sequence ≠ 0 → ∃ c, Searched lookups c ∧ slot.Holds c)

/-- The operation of the cold owner is on its way. -/
def ColdOk (s : ArchiveState ρ) : ColdTask ρ → Prop
  | .idle => True
  | .publishGeneration generation rows =>
    s.current.generation < generation ∧ generation ≤ s.disk.generation ∧
      ∀ row ∈ rows.entries, s.disk.Has row.kind row.baseKey
  | .publishFilter bits rows =>
    (∀ row ∈ rows.entries, ∀ bit ∈ filterIndices row.kind row.baseKey,
      s.current.filter bit = true ∨ bit ∈ bits) ∧
    (∀ i, (s.current.absences i).generation < s.current.generation) ∧
      ∀ row ∈ rows.entries, s.disk.Has row.kind row.baseKey
  | .record _ c _ =>
    c.generation ≤ s.current.generation ∧ Searched s.lookups c ∧ Unstored s.returned c

/-- A hint that is owed the truth is on its way to it. -/
def HintOk (s : ArchiveState ρ) (call : HintCall) : Prop :=
  call.epoch ≤ s.epoch ∧ (call.owed = true → call.key ≠ "" →
    ∃ k ∈ s.returned, call.AsksFor k ∧ k.epoch ≤ call.epoch ∧
      CallOk (s.memory call.epoch) call k.generation)

structure Sound (s : ArchiveState ρ) : Prop where
  disk : s.disk.Consistent
  generation_le : s.current.generation ≤ s.disk.generation
  slot_generation_le : ∀ i, (s.current.absences i).generation ≤ s.current.generation
  slots : ∀ i, SlotOk s.lookups (s.current.absences i) (s.cold.writing i)
  cold : ColdOk s s.cold
  stored : ∀ k ∈ s.returned, s.disk.Has k.kind k.baseKey
  revoked : ∀ k ∈ s.returned, k.epoch ≤ s.epoch ∧
    ∀ e, k.epoch ≤ e → e ≤ s.epoch → (s.memory e).Revokes k
  hints : ∀ call ∈ s.calls, HintOk s call

@[simp] lemma ArchiveState.current_setCurrent (s : ArchiveState ρ) (m : Memory) :
    (s.setCurrent m).current = m := update_self ..

namespace Sound

variable {s : ArchiveState ρ} {m : Memory}

lemma new : Sound (new : ArchiveState ρ) where
  disk := ⟨nofun, nofun⟩
  generation_le := le_refl _
  slot_generation_le := fun _ => zero_le _
  slots := fun _ => ⟨rfl, fun h => absurd rfl h⟩
  cold := trivial
  stored := nofun
  revoked := nofun
  hints := fun _ h => nomatch h

/-- The cold owner changes the present memory and goes on. -/
lemma evolve {cold : ColdTask ρ} (h : Sound s) (hm : s.current.Evolves m)
    (hgen : m.generation ≤ s.disk.generation)
    (hslotGeneration : ∀ i, (m.absences i).generation ≤ m.generation)
    (hslots : ∀ i, SlotOk s.lookups (m.absences i) (cold.writing i))
    (hcold : ColdOk (s.setCurrent m) cold)
    (hrev : ∀ k ∈ s.returned, s.current.Revokes k → m.Revokes k) :
    Sound { s.setCurrent m with cold := cold } := by
  have hcur : (s.setCurrent m).memory s.epoch = m := update_self ..
  have hne {e : ℕ} (he : e ≠ s.epoch) : (s.setCurrent m).memory e = s.memory e :=
    update_of_ne he ..
  refine ⟨h.disk, ?_, ?_, fun i => ?_, ?_, h.stored, fun k hk => ?_, fun call hcall => ?_⟩
  · show (s.setCurrent m).current.generation ≤ _
    rw [current_setCurrent]
    exact hgen
  · show ∀ i, ((s.setCurrent m).current.absences i).generation ≤ (s.setCurrent m).current.generation
    rw [current_setCurrent]
    exact hslotGeneration
  · show SlotOk s.lookups ((s.setCurrent m).current.absences i) (cold.writing i)
    rw [current_setCurrent]
    exact hslots i
  · cases cold <;> exact hcold
  · refine ⟨(h.revoked k hk).1, fun e hle hep => ?_⟩
    have hold := (h.revoked k hk).2 e hle hep
    by_cases he : e = s.epoch
    · rw [he] at hold
      rw [he, hcur]
      exact hrev k hk hold
    · rw [hne he]
      exact hold
  · obtain ⟨hep, howed⟩ := h.hints call hcall
    refine ⟨hep, fun hc hkey => ?_⟩
    obtain ⟨k, hk, hasks, hle, hok⟩ := howed hc hkey
    refine ⟨k, hk, hasks, hle, ?_⟩
    by_cases he : call.epoch = s.epoch
    · rw [he, hcur]
      rw [he] at hok
      exact hok.evolve hm
    · rw [hne he]
      exact hok

variable {f : VerifiedAbsence → VerifiedAbsence}

variable {i : Fin absenceSlots} {kind : UInt8} {nowMs : ℕ} {c : Certificate}

section

variable (h : Sound s) {cold : ColdTask ρ} {ctx : ArchiveContext ρ}

include h

/-- One operation on the slot that is being recorded. -/
lemma record {stage : RecordStage}
    (hrec : s.cold = .record i c stage) (hcold : cold = .idle ∨ ∃ stage', cold = .record i c stage')
    (hevolves : (s.current.absences i).Evolves (f (s.current.absences i)))
    (hgen : (f (s.current.absences i)).generation ≤ s.current.generation)
    (hslot : SlotOk s.lookups (f (s.current.absences i)) (cold.writing i))
    (hrev : ∀ k ∈ s.returned, k.baseKey ≠ "" → ∀ gen,
      (f (s.current.absences i)).Complete →
      ¬ (f (s.current.absences i)).Holds ⟨k.kind, gen, keyBytes k.baseKey⟩) :
    Sound { s.setCurrent (s.current.modify i f) with cold := cold } := by
  have hupd j : (s.current.modify i f).absences j =
      if j = i then f (s.current.absences i) else s.current.absences j :=
    update_apply ..
  have hok : ColdOk s (.record i c stage) := hrec ▸ h.cold
  refine h.evolve ⟨fun _ hbit => hbit, le_refl _, fun j => ?_⟩ h.generation_le (fun j => ?_)
    (fun j => ?_) ?_ fun k hk hold => { hold with older := fun hkey j gen => ?_ }
  · rw [hupd]
    split
    · next hj =>
      rw [hj]
      exact hevolves
    · exact ⟨le_refl _, fun _ _ => rfl⟩
  · rw [hupd]
    split
    · exact hgen
    · exact h.slot_generation_le j
  · rw [hupd]
    split
    · next hj =>
      rw [hj]
      exact hslot
    next hj =>
    -- Neither the old nor the new operation writes another slot.
    have hwrit {stage : RecordStage} :
        (ColdTask.record i c stage : ColdTask ρ).writing j = none := by
      cases stage <;> simp [writing, Ne.symm hj]
    have hnone : s.cold.writing j = none := hrec ▸ hwrit
    have hnone' : cold.writing j = none := by
      rcases hcold with rfl | ⟨stage', rfl⟩
      · rfl
      · exact hwrit
    have hold := h.slots j
    rw [hnone] at hold
    rw [hnone']
    exact hold
  · rcases hcold with rfl | ⟨stage', rfl⟩
    · trivial
    · obtain ⟨hle, hsearc, huns⟩ := hok
      refine ⟨?_, hsearc, huns⟩
      rw [current_setCurrent]
      exact hle
  · rw [hupd]
    split
    · exact fun hcomp hholds => absurd hholds (hrev k hk hkey gen hcomp)
    · exact hold.older hkey j gen

lemma record_open (hrec : s.cold = .record i c .open) :
    Sound { s.setCurrent (s.current.modify i fun a => { a with sequence := a.sequence + 1 }) with
      cold := .record i c (.store .kind) } := by
  have hslot := h.slots i
  rw [hrec] at hslot
  obtain ⟨heven, -⟩ := hslot
  refine h.record hrec (.inr ⟨_, rfl⟩) ⟨le_succ _, fun hsame => ?_⟩
    (h.slot_generation_le i) ?_ fun k hk hkey gen hcomp => ?_
  · exact absurd hsame (succ_ne_self _)
  · rw [writing, if_pos rfl]
    refine ⟨?_, fun f hf => absurd hf (not_lt_zero _)⟩
    show ((s.current.absences i).sequence + 1) % 2 = 1
    omega
  · have heven' : ((s.current.absences i).sequence + 1) % 2 = 0 := hcomp.2
    omega

lemma record_store {field : SlotField} (hrec : s.cold = .record i c (.store field)) :
    Sound { s.setCurrent (s.current.modify i fun a => a.write c field) with
      cold := .record i c
        (match field.next c.bytes.length with
        | some field => .store field
        | none => .close) } := by
  have hslot := h.slots i
  rw [hrec, writing, if_pos rfl] at hslot
  obtain ⟨hodd, hagr⟩ := hslot
  have hok : ColdOk s (.record i c (.store field)) := hrec ▸ h.cold
  refine h.record hrec (.inr ⟨_, rfl⟩) ⟨?_, fun _ heven => ?_⟩ ?_ ?_
    fun k hk hkey generation hcomp => ?_
  · rw [sequence_write]
  · omega
  · have hle := h.slot_generation_le i
    cases field with
    | generation => exact hok.1
    | _ => exact hle
  · cases hnext : field.next c.bytes.length with
    | some field' =>
      simp only [writing, if_true]
      refine ⟨by rw [sequence_write]; exact hodd, ?_⟩
      rw [(SlotField.next_some hnext).1]
      exact hagr.write
    | none =>
      simp only [writing, if_true]
      refine ⟨by rw [sequence_write]; exact hodd, fun f _ hval => ?_⟩
      exact hagr.write.holds hnext f hval
  · have heven := hcomp.2
    rw [sequence_write] at heven
    omega

lemma record_close (hrec : s.cold = .record i c .close) :
    Sound { s.setCurrent (s.current.modify i fun a => { a with sequence := a.sequence + 1 }) with
      cold := .idle } := by
  have hslot := h.slots i
  rw [hrec, writing, if_pos rfl] at hslot
  obtain ⟨hodd, hagr⟩ := hslot
  obtain ⟨-, hsearc, huns⟩ : ColdOk s (.record i c .close) := hrec ▸ h.cold
  have hholds : Holds
      { s.current.absences i with sequence := (s.current.absences i).sequence + 1 } c := by
    intro f hval
    have hrank : f.rank < 4 + c.bytes.length := by
      cases f with
      | byte index =>
        have hlt : index < c.bytes.length := hval
        simp only [SlotField.rank]
        omega
      | _ =>
        simp only [SlotField.rank]
        omega
    have hread := hagr f hrank hval
    cases f <;> exact hread
  refine h.record hrec (.inl rfl) ⟨le_succ _, fun hsame => ?_⟩ (h.slot_generation_le i) ?_
    fun k hk hkey gen hcomp hne => ?_
  · exact absurd hsame (succ_ne_self _)
  · refine ⟨?_, fun _ => ⟨c, hsearc, hholds⟩⟩
    show ((s.current.absences i).sequence + 1) % 2 = 0
    omega
  · -- The certificate that is complete now is not about a stored key.
    have heq := hholds.unique hne
    exact huns k hk hkey (congrArg Certificate.kind heq).symm
      (congrArg Certificate.bytes heq).symm

lemma publishGeneration {generation : ℕ} (hcold : s.cold = .publishGeneration generation rows) :
    Sound { s.setCurrent { s.current with generation := generation } with
      cold := .publishFilter rows.bits rows } := by
  obtain ⟨hlt, hdisk, hhas⟩ : ColdOk s (.publishGeneration generation rows) := hcold ▸ h.cold
  have hslots := h.slots
  rw [hcold] at hslots
  refine h.evolve ⟨fun _ hbit => hbit, le_of_lt hlt, fun i => ⟨le_refl _, fun _ _ => rfl⟩⟩
    hdisk (fun i => le_trans (h.slot_generation_le i) (le_of_lt hlt)) hslots ?_
    fun k hk hold => ⟨hold.bits, le_trans hold.generation_le (le_of_lt hlt), hold.older⟩
  refine ⟨fun row hrow bit hbit => .inr (mem_flatMap.2 ⟨row, hrow, hbit⟩), ?_, hhas⟩
  rw [current_setCurrent]
  exact fun i => lt_of_le_of_lt (h.slot_generation_le i) hlt

lemma publishBit {bit : ℕ} {bits : List ℕ} (hcold : s.cold = .publishFilter (bit :: bits) rows) :
    Sound { s.setCurrent { s.current with
        filter := update s.current.filter bit true } with
      cold := .publishFilter bits rows } := by
  obtain ⟨hbits, hlt, hhas⟩ : ColdOk s (.publishFilter (bit :: bits) rows) := hcold ▸ h.cold
  have hslots := h.slots
  rw [hcold] at hslots
  have hmono b (hb : s.current.filter b = true) :
      update s.current.filter bit true b = true := by
    rw [update_apply]
    split
    · rfl
    · exact hb
  refine h.evolve ⟨hmono, le_refl _, fun i => ⟨le_refl _, fun _ _ => rfl⟩⟩
    h.generation_le h.slot_generation_le hslots ?_
    fun k hk hold => { hold with bits := fun b hb => hmono b (hold.bits b hb) }
  refine ⟨fun row hrow b hb => ?_, ?_, hhas⟩
  · rw [current_setCurrent]
    rcases hbits row hrow b hb with hset | hmem
    · exact .inl (hmono b hset)
    · rcases mem_cons.1 hmem with rfl | hmem
      · exact .inl (update_self ..)
      · exact .inr hmem
  · rw [current_setCurrent]
    exact hlt

/-- When a store returns, its keys are revoked. -/
lemma storeReturns (hcold : s.cold = .publishFilter [] rows) :
    Sound { s with
      cold := .idle
      returned := s.returned ++ rows.entries.map fun row =>
        ⟨row.kind, row.baseKey, s.current.generation, s.epoch⟩ } := by
  obtain ⟨hbits, hlt, hhas⟩ : ColdOk s (.publishFilter [] rows) := hcold ▸ h.cold
  have hslots := h.slots
  rw [hcold] at hslots
  refine ⟨h.disk, h.generation_le, h.slot_generation_le, hslots, trivial, fun k hk => ?_,
    fun k hk => ?_, fun call hcall => ?_⟩
  · rcases mem_append.1 hk with hk | hk
    · exact h.stored k hk
    · obtain ⟨row, hrow, rfl⟩ := mem_map.1 hk
      exact hhas row hrow
  · rcases mem_append.1 hk with hk | hk
    · exact h.revoked k hk
    · obtain ⟨row, hrow, rfl⟩ := mem_map.1 hk
      refine ⟨le_refl _, fun e hle hep => ?_⟩
      obtain rfl : e = s.epoch := le_antisymm hep hle
      refine ⟨fun bit hbit => ?_, le_refl _, fun _ i generation _ hholds => ?_⟩
      · exact (hbits row hrow bit hbit).elim id nofun
      · have hread : (s.current.absences i).generation = generation := hholds .generation trivial
        rw [← hread]
        exact hlt i
  · obtain ⟨hep, howed⟩ := h.hints call hcall
    refine ⟨hep, fun hc hkey => ?_⟩
    obtain ⟨k, hk, hrest⟩ := howed hc hkey
    exact ⟨k, mem_append_left _ hk, hrest⟩

lemma stepCold {s' : ArchiveState ρ} (hstep : s.stepCold = some s') : Sound s' := by
  unfold ArchiveState.stepCold at hstep
  split at hstep
  case h_1 => cases hstep
  case h_2 hcold => cases hstep; exact h.publishGeneration hcold
  case h_3 hcold => cases hstep; exact h.publishBit hcold
  case h_4 hcold => cases hstep; exact h.storeReturns hcold
  case h_5 hcold => cases hstep; exact h.record_open hcold
  case h_6 hcold => cases hstep; exact h.record_store hcold
  case h_7 hcold => cases hstep; exact h.record_close hcold

/-- A transaction on disk. -/
lemma commit [DecidableEq ρ] {d : Disk ρ} (hstore : s.disk.store ctx rows = .ok d)
    (hidle : s.cold = .idle)
    (hcold : cold = .idle ∨ cold = .publishGeneration d.generation rows) :
    Sound { s with disk := d, cold := cold } := by
  obtain ⟨hcons, hgen, hkeep, hhas⟩ := Disk.store_ok h.disk hstore
  have hle := h.generation_le
  have hslots := h.slots
  rw [hidle] at hslots
  refine ⟨hcons, ?_, h.slot_generation_le, fun i => ?_, ?_, fun k hk => ?_, h.revoked, h.hints⟩
  · show s.current.generation ≤ d.generation
    omega
  · rcases hcold with rfl | rfl <;> exact hslots i
  · rcases hcold with rfl | rfl
    · trivial
    · refine ⟨?_, le_refl _, hhas⟩
      show s.current.generation < d.generation
      omega
  · obtain ⟨row, hrow, hkey⟩ := h.stored k hk
    exact ⟨row, hkeep row hrow, hkey⟩

lemma reopen : Sound { s with
    epoch := s.epoch + 1
    memory := update s.memory (s.epoch + 1) (Memory.open s.disk)
    cold := .idle } := by
  generalize hmem : update s.memory (s.epoch + 1) (Memory.open s.disk) = memory
  have hcur : memory (s.epoch + 1) = Memory.open s.disk := by rw [← hmem, update_self]
  have hold {e : ℕ} (he : e ≤ s.epoch) : memory e = s.memory e := by
    rw [← hmem, update_of_ne (by omega)]
  refine ⟨h.disk, ?_, fun i => ?_, fun i => ?_, trivial, h.stored, fun k hk => ?_,
    fun call hcall => ?_⟩
  · show (memory (s.epoch + 1)).generation ≤ _
    rw [hcur]
    exact le_refl _
  · show ((memory (s.epoch + 1)).absences i).generation ≤ _
    rw [hcur]
    exact zero_le _
  · show SlotOk s.lookups ((memory (s.epoch + 1)).absences i) none
    rw [hcur]
    exact ⟨rfl, fun hne => absurd rfl hne⟩
  · obtain ⟨hep, hrev⟩ := h.revoked k hk
    refine ⟨le_succ_of_le hep, fun e hle hbound => ?_⟩
    show (memory e).Revokes k
    by_cases he : e ≤ s.epoch
    · rw [hold he]
      exact hrev e hle he
    -- The new process reads bits and generation from disk and has no certificates.
    have hnow : e = s.epoch + 1 := le_antisymm hbound (by omega)
    rw [hnow, hcur]
    refine ⟨fun bit hbit => ?_, ?_, fun _ i generation hcomp _ => absurd rfl hcomp.1⟩
    · obtain ⟨row, hrow, hkind, hbase⟩ := h.stored k hk
      exact h.disk.bits row hrow bit (by rw [hkind, hbase]; exact hbit)
    · exact le_trans (hrev s.epoch hep (le_refl _)).generation_le h.generation_le
  · obtain ⟨hep, howed⟩ := h.hints call hcall
    refine ⟨le_succ_of_le hep, fun hc hkey => ?_⟩
    obtain ⟨k, hk, hasks, hle, hok⟩ := howed hc hkey
    refine ⟨k, hk, hasks, hle, ?_⟩
    show CallOk (memory call.epoch) call _
    rw [hold hep]
    exact hok

/-- A lookup is noted. -/
lemma note (hidle : s.cold = .idle) (l : Lookup) :
    Sound { s with lookups := s.lookups ++ [l] } := by
  refine { h with slots := fun i => ?_, cold := ?_ }
  · have hslot := h.slots i
    rw [hidle] at hslot
    rw [hidle]
    refine ⟨hslot.1, fun hne => ?_⟩
    obtain ⟨c, ⟨found, hfound, hsearc⟩, hholds⟩ := hslot.2 hne
    exact ⟨c, ⟨found, mem_append_left _ hfound, hsearc⟩, hholds⟩
  · rw [hidle]
    trivial

lemma lookup [DecidableEq ρ] {ident : String} (hidle : s.cold = .idle)
    (hkey : storedKey kind ident = ident) : Sound (s.startLookup ctx kind ident nowMs) := by
  unfold startLookup
  split
  · exact h
  next rows hload =>
  have hnoted := h.note hidle ⟨kind, ident, rows.length⟩
  dsimp only
  split
  · next hempty =>
    obtain ⟨rfl, -⟩ := hempty
    have hslots := hnoted.slots
    rw [show ({ s with lookups := s.lookups ++ [⟨kind, ident, 0⟩] } : ArchiveState ρ).cold =
      .idle from hidle] at hslots
    refine hnoted.evolve
      ⟨fun _ hbit => hbit, le_refl _, fun i => ⟨le_refl _, fun _ _ => rfl⟩⟩
      hnoted.generation_le hnoted.slot_generation_le hslots ?_
      fun k hk hold => { hold with  }
    refine ⟨by rw [current_setCurrent],
      ⟨⟨kind, ident, 0⟩, mem_append_right _ (mem_singleton_self _), rfl, rfl, rfl⟩, ?_⟩
    -- Nothing was found for an identity that is its own key, so no store of it has returned.
    intro k hk hnon hkind hbytes
    have hbase : k.baseKey = ident := by
      rw [absenceBytes_absenceKey, hkey] at hbytes
      exact keyBytes_injective hbytes
    have hrev := (h.revoked k hk).2 s.epoch (h.revoked k hk).1 (le_refl _)
    have hbits := hrev.bits
    have hhas := h.stored k hk
    rw [hkind, hbase] at hbits hhas
    exact load_ne_nil (hbase ▸ hnon) hbits hhas hload
  · exact hnoted

/-- A hint starts. -/
lemma hint : Sound { s with calls := s.calls ++ [{
      epoch := s.epoch
      kind := kind
      identity := identity
      stage := if absenceKey kind identity = "" then .returned false
        else .filter (filterIndices kind (absenceKey kind identity))
      owed := s.returned.any fun k =>
        k.kind = kind && k.baseKey = storedKey kind identity }] } := by
  refine { h with
    cold := ?_
    hints := forall_mem_append.2
      ⟨h.hints, forall_mem_singleton.2 ⟨le_refl _, fun howed hkey => ?_⟩⟩ }
  · have hcold := h.cold
    cases hs : s.cold <;> rw [hs] at hcold <;> exact hcold
  · obtain ⟨k, hk, hmatch⟩ := any_eq_true.1 howed
    simp only [Bool.and_eq_true, decide_eq_true_eq] at hmatch
    have hkey : absenceKey kind identity ≠ "" := hkey
    have hstored : storedKey kind identity ≠ "" :=
      fun hempty => hkey ((absenceKey_eq_empty_iff kind identity).2 hempty)
    obtain ⟨hep, hrev⟩ := h.revoked k hk
    refine ⟨k, hk, ⟨hmatch.1, hmatch.2, hmatch.2 ▸ hstored⟩, hep, ?_⟩
    rw [if_neg hkey]
    intro bit hbit
    rw [filterIndices_absenceKey, ← hmatch.2, ← hmatch.1] at hbit
    exact (hrev s.epoch hep (le_refl _)).bits bit hbit

/-- A hint does its next operation. -/
lemma advance {i : ℕ} {call : HintCall} {stage : HintStage}
    (hi : s.calls[i]? = some call) (hnext : call.next (s.memory call.epoch) = some stage) :
    Sound { s with calls := s.calls.set i { call with stage := stage } } := by
  refine { h with cold := ?_, hints := fun other hne => ?_ }
  · have hcold := h.cold
    cases hs : s.cold <;> rw [hs] at hcold <;> exact hcold
  · rcases mem_or_eq_of_mem_set hne with hne | rfl
    · exact h.hints other hne
    · obtain ⟨hep, howed⟩ := h.hints call (mem_of_getElem? hi)
      refine ⟨hep, fun hc hkey => ?_⟩
      obtain ⟨k, hk, hasks, hle, hok⟩ := howed hc hkey
      exact ⟨k, hk, hasks, hle, hok.next ((h.revoked k hk).2 call.epoch hle hep) hasks hnext⟩

end

end Sound

/-- The callers look up normalised order ids and trade ids without a colon. -/
def ArchiveAction.Normalised : ArchiveAction ρ → Prop
  | .lookup kind identity _ =>
    if kind = orderKind then normalizeOrderId identity = identity else ':' ∉ identity.toList
  | _ => True

lemma storedKey_of_normalised {kind : UInt8}
    (h : if kind = orderKind then normalizeOrderId identity = identity
      else ':' ∉ identity.toList) : storedKey kind identity = identity := by
  unfold storedKey
  split
  · next hkind =>
    rw [if_pos hkind] at h
    exact h
  next hkind =>
  rw [if_neg hkind] at h
  have hall : ∀ c ∈ identity.toList, decide (c ≠ ':') = true :=
    fun c hc => decide_eq_true fun heq => h (heq ▸ hc)
  unfold baseTradeKey
  rw [takeWhile_eq_self_iff.2 hall, String.ofList_toList]

variable [DecidableEq ρ] {ctx : ArchiveContext ρ} {s s' : ArchiveState ρ}

lemma Sound.step {a : ArchiveAction ρ} (h : Sound s) (ha : a.Normalised)
    (hstep : s.step ctx a = some s') : Sound s' := by
  cases a with
  | store rows answer =>
    simp only [ArchiveState.step] at hstep
    split at hstep
    · next hidle =>
      split at hstep
      · cases hstep
        exact h
      · next disk hstore =>
        cases hstep
        exact h.commit hstore hidle (.inr rfl)
      next disk durable hstore =>
      cases hstep
      cases durable
      · exact h
      · have hcommit := h.commit hstore hidle (.inl rfl)
        rw [← hidle] at hcommit
        exact hcommit
    · cases hstep
  | lookup kind ident nowMs =>
    simp only [ArchiveState.step] at hstep
    split at hstep
    · next hidle =>
      cases hstep
      exact h.lookup hidle (storedKey_of_normalised ha)
    · cases hstep
  | cold => exact h.stepCold hstep
  | reopen =>
    cases hstep
    exact h.reopen
  | hint kind ident =>
    cases hstep
    exact h.hint
  | advance i =>
    simp only [ArchiveState.step] at hstep
    split at hstep
    · cases hstep
    next call hi =>
    obtain ⟨stage, hnext, rfl⟩ := Option.map_eq_some_iff.1 hstep
    exact h.advance hi hnext

lemma Sound.run {acts : List (ArchiveAction ρ)} (h : Sound s)
    (hact : ∀ a ∈ acts, a.Normalised) (hrun : s.run ctx acts = some s') : Sound s' := by
  induction acts generalizing s with
  | nil =>
    cases hrun
    exact h
  | cons a acts ih =>
    obtain ⟨s₁, hstep, hrest⟩ := Option.bind_eq_some_iff.1 hrun
    exact ih (h.step (hact a (mem_cons_self ..)) hstep)
      (fun b hb => hact b (.tail _ hb)) hrest

/-! ## No false negatives -/

/-- What hints and certificates are worth in one state. -/
structure ArchiveState.Reliable (s : ArchiveState ρ) : Prop where
  /-- A hint that started after a store of its key had returned does not answer `false`. -/
  hint : ∀ call ∈ s.calls, call.owed = true → call.key ≠ "" → call.stage ≠ .returned false
  /-- Hints do not wait for anybody. -/
  progress : ∀ call ∈ s.calls, (∀ hint, call.stage ≠ .returned hint) → ∀ m,
    ∃ stage, call.next m = some stage ∧
      stage.remaining call.bytes.length < call.stage.remaining call.bytes.length
  /-- A certificate is about a key for which a lookup found nothing. -/
  certified : ∀ i, (s.current.absences i).Complete → ∃ l ∈ s.lookups, l.found = 0 ∧
    ∃ generation, (s.current.absences i).Holds
      ⟨l.kind, generation, absenceBytes l.kind (absenceKey l.kind l.identity)⟩
  /-- A certificate for a key whose store has returned is not of the present generation. -/
  revoked : ∀ k ∈ s.returned, k.baseKey ≠ "" → ∀ i generation, (s.current.absences i).Complete →
    (s.current.absences i).Holds ⟨k.kind, generation, keyBytes k.baseKey⟩ →
    generation ≠ s.current.generation

omit [DecidableEq ρ] in
lemma Sound.reliable (h : Sound s) : s.Reliable where
  hint := fun call hcall howed hkey hfalse => by
    obtain ⟨-, hok⟩ := h.hints call hcall
    obtain ⟨k, -, -, -, hcall⟩ := hok howed hkey
    unfold CallOk at hcall
    rw [hfalse] at hcall
    cases hcall
  progress := fun call _ hstage m => call.next_remaining hstage
  certified := fun i hcomplete => by
    have hslot := h.slots i
    cases hwriting : s.cold.writing i with
    | some written =>
      rw [hwriting] at hslot
      have hodd := hslot.1
      have heven := hcomplete.2
      omega
    | none =>
      rw [hwriting] at hslot
      obtain ⟨c, ⟨l, hl, hfound, hkind, hbytes⟩, hholds⟩ := hslot.2 hcomplete.1
      refine ⟨l, hl, hfound, c.generation, ?_⟩
      rw [← hbytes, ← hkind]
      exact hholds
  revoked := fun k hk hkey i generation hcomplete hholds => by
    obtain ⟨hepoch, hrevokes⟩ := h.revoked k hk
    have hnow := hrevokes s.epoch hepoch (le_refl _)
    have hlt := hnow.older hkey i generation hcomplete hholds
    have hle : k.generation ≤ s.current.generation := hnow.generation_le
    omega

/-- The hints of the archive have no false negatives for keys that are not empty, in any
interleaving of the cold owner with its readers. -/
theorem no_false_negatives (ctx : ArchiveContext ρ) (actions : List (ArchiveAction ρ))
    (hactions : ∀ a ∈ actions, a.Normalised) (s : ArchiveState ρ)
    (hrun : new.run ctx actions = some s) : s.Reliable :=
  (Sound.new.run hactions hrun).reliable

/-- The proof of a trade leg that the runs below store. -/
def legProof (key : String) : ArchiveRows Unit :=
  { trades := [(key, ⟨"account", key, (), 7⟩)] }

/-- A lookup of `t` certifies its absence. Then a leg of `t` is stored, and a hint for `t` finds the
certificate outdated in the first slot and answers `true`. -/
theorem no_false_negatives_leg :
    ∃ s : ArchiveState Unit, new.run ⟨"account", fun _ _ => false⟩
      ([.lookup tradeKind "t" 1] ++ replicate 7 .cold ++
        [.store (legProof "t:leg") .committed] ++ replicate 6 .cold ++ [.hint tradeKind "t"] ++
        replicate 72 (.advance 0)) = some s ∧
      s.calls = [⟨0, tradeKind, "t", .returned true, true⟩] ∧
      (s.current.absences ⟨0, by decide⟩).sequence = 2 ∧ s.Reliable := by
  have hrun : (new.run ⟨"account", fun _ _ => false⟩
      ([.lookup tradeKind "t" 1] ++ replicate 7 .cold ++
        [.store (legProof "t:leg") .committed] ++ replicate 6 .cold ++ [.hint tradeKind "t"] ++
        replicate 72 (.advance 0))).any (fun s =>
      s.calls = [⟨0, tradeKind, "t", .returned true, true⟩] ∧
      (s.current.absences ⟨0, by decide⟩).sequence = 2) = true := by
    decide +kernel
  obtain ⟨s, hs, hprop⟩ := (Option.any_eq_true ..).1 hrun
  refine ⟨s, hs, (of_decide_eq_true hprop).1, (of_decide_eq_true hprop).2,
    no_false_negatives _ _ (fun a ha => ?_) s hs⟩
  simp only [mem_append, mem_singleton, mem_replicate] at ha
  rcases ha with ((((rfl | ⟨-, rfl⟩) | rfl) | ⟨-, rfl⟩) | rfl) | ⟨-, rfl⟩
  · show ':' ∉ "t".toList
    decide
  all_goals trivial

/-- A proof with an empty key is stored like any other, but hints answer `false` for the empty
key without a look at the filter. -/
theorem empty_key_has_no_hint :
    ∃ s : ArchiveState Unit, new.run ⟨"account", fun _ _ => false⟩
      ([.store (legProof "") .committed] ++ replicate 6 .cold ++
        [.hint tradeKind ""]) = some s ∧
      s.calls = [⟨0, tradeKind, "", .returned false, true⟩] := by
  have hrun : (new.run ⟨"account", fun _ _ => false⟩
      ([.store (legProof "") .committed] ++ replicate 6 .cold ++ [.hint tradeKind ""])).any
      (fun s => s.calls = [⟨0, tradeKind, "", .returned false, true⟩]) = true := by
    decide +kernel
  obtain ⟨s, hs, hcalls⟩ := (Option.any_eq_true ..).1 hrun
  exact ⟨s, hs, of_decide_eq_true hcalls⟩

end HexAgent.History
