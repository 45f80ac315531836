import Mathlib.Order.Basic
import Mathlib.Data.Nat.Notation

/-!
# Book-continuity evidence

The evidence state of one token in the simulator (`sim_v2/evidence.rs`). Books arrive without a
sequence number; explicit records bind to the applied book and link to the record before, and only
they verify it.

A gap fails closed if it forgets the sequence number, as explicit records do. A failed check keeps
it: the next book makes the status `Unproven` again, and an update that links to the number from
before the gap is then accepted (`gap_verified_without_snapshot`). Unless a record relinks in this
way, the status stays unverified until a snapshot is accepted (`continuity_fails_closed`).
-/

namespace HexAgent.Simulator

inductive ContinuityStatus
  | unproven
  | verified
  | gap
  | reconnect
  deriving DecidableEq

inductive ContinuityKind
  | snapshot
  | sequencedUpdate
  | sequenceHeartbeat
  | gap
  | reconnect
  deriving DecidableEq

/-- An explicit protocol observation. -/
structure BookContinuityRecord where
  iid : String := ""
  token : String := ""
  eventEpoch : ℕ := 0
  /-- Identity given by the recorder, not a sequence number of the venue. -/
  evidenceId : ℕ
  kind : ContinuityKind
  sessionId : ℕ
  sequence : Option ℕ := none
  previousSequence : Option ℕ := none
  sourceNs : Option ℕ := none
  receiveNs : ℕ
  applyNs : ℕ := 0
  bookSourceNs : Option ℕ := none
  bookReceiveNs : Option ℕ := none
  provenance : String := ""
  deriving DecidableEq

structure ArchiveCoverageCertificate where
  eventEpoch : ℕ
  sessionId : ℕ
  bookSourceNs : ℕ
  bookReceiveNs : ℕ
  startNs : ℕ
  endExclusiveNs : ℕ
  anchorEvidenceId : ℕ
  closingEvidenceId : ℕ
  deriving DecidableEq

structure BookContinuityState where
  status : ContinuityStatus := .unproven
  bookSourceNs : Option ℕ := none
  bookReceiveNs : Option ℕ := none
  bookIdentityAmbiguous : Bool := false
  sessionId : Option ℕ := none
  sequence : Option ℕ := none
  verifiedThroughNs : Option ℕ := none
  invalidatedReceiveNs : Option ℕ := none
  lastEvidenceId : ℕ := 0
  lastEvidenceSourceNs : Option ℕ := none
  duplicateEvidence : ℕ := 0
  ignoredOlderEvidence : ℕ := 0
  archiveCertificate : Option ArchiveCoverageCertificate := none

namespace BookContinuityState

variable (s : BookContinuityState)

def observeBook (sourceNs receiveNs : ℕ) : BookContinuityState :=
  if s.bookSourceNs.any (sourceNs < ·) then s
  else { s with
    -- Equal timestamps may be different book updates.
    bookIdentityAmbiguous := s.bookSourceNs = some sourceNs ∧ s.bookReceiveNs = some receiveNs
    bookSourceNs := some sourceNs
    bookReceiveNs := some receiveNs
    verifiedThroughNs := none
    archiveCertificate := none
    status := if s.invalidatedReceiveNs.any (receiveNs ≤ ·) then s.status else .unproven }

def ignore : BookContinuityState :=
  { s with ignoredOlderEvidence := s.ignoredOlderEvidence + 1 }

/-- What a gap, a reconnect and a failed check have in common. -/
def invalidate (status : ContinuityStatus) (receiveNs : ℕ) : BookContinuityState :=
  { s with
    status
    verifiedThroughNs := none
    invalidatedReceiveNs := some (max (s.invalidatedReceiveNs.getD 0) receiveNs) }

section

variable (r : BookContinuityRecord)

/-- The record is about the current book. -/
def bound : Bool :=
  r.bookSourceNs = s.bookSourceNs ∧ r.bookReceiveNs = s.bookReceiveNs ∧ s.bookSourceNs.isSome ∧
    s.bookIdentityAmbiguous = false ∧ s.invalidatedReceiveNs.any (r.receiveNs ≤ ·) = false

/-- The record needs no predecessor or continues the sequence of its session. -/
def linked : Bool :=
  r.kind = .snapshot ∨
    s.sessionId = some r.sessionId ∧ s.sequence = r.previousSequence ∧
      (s.sequence.any fun old => r.sequence.any (old < ·)) ∧
      ¬(s.status = .gap ∨ s.status = .reconnect)

/-- A heartbeat repeats the verified sequence number, at no earlier time. -/
def heartbeats : Bool :=
  s.status = .verified ∧ s.sessionId = some r.sessionId ∧ s.sequence = r.sequence ∧
    r.sourceNs.any fun new => s.verifiedThroughNs.any (· ≤ new)

/-- A snapshot or an update verifies the book that it is about. -/
def verify : BookContinuityState :=
  -- Proof for a book that has been replaced says nothing about the current one.
  if r.bookSourceNs.any fun proof => s.bookSourceNs.any (proof < ·) then s.ignore
  else if !s.bound r || !s.linked r then s.invalidate .gap r.receiveNs
  else { s with
    status := .verified
    sessionId := some r.sessionId
    sequence := r.sequence
    verifiedThroughNs := r.sourceNs }

/-- The effect of a record that is not a repetition. -/
def accept : BookContinuityState :=
  match r.kind with
  | .gap =>
    -- A late disconnect of an old connection does not concern the session that replaced it.
    if s.sessionId.any (· ≠ r.sessionId) then s.ignore
    else { s.invalidate .gap r.receiveNs with sessionId := some r.sessionId, sequence := none }
  | .reconnect =>
    { s.invalidate .reconnect r.receiveNs with sessionId := some r.sessionId, sequence := none }
  | .snapshot | .sequencedUpdate => s.verify r
  | .sequenceHeartbeat =>
    if s.heartbeats r then { s with verifiedThroughNs := r.sourceNs }
    else s.invalidate .gap r.receiveNs

def observe : BookContinuityState :=
  if r.evidenceId = s.lastEvidenceId then
    { s with duplicateEvidence := s.duplicateEvidence + 1 }
  else if r.evidenceId < s.lastEvidenceId then s.ignore
  else
    { s with lastEvidenceId := r.evidenceId, lastEvidenceSourceNs := r.sourceNs }.accept r

end

end BookContinuityState

/-- A call on the evidence state. -/
inductive Observation
  | book (sourceNs receiveNs : ℕ)
  | record (r : BookContinuityRecord)

namespace BookContinuityState

variable {s t : BookContinuityState}

def step (s : BookContinuityState) : Observation → BookContinuityState
  | .book sourceNs receiveNs => s.observeBook sourceNs receiveNs
  | .record r => s.observe r

/-- The call is a snapshot record that verifies the book. -/
def acceptsSnapshot (s : BookContinuityState) : Observation → Prop
  | .book .. => False
  | .record r => r.kind = .snapshot ∧ (s.observe r).status = .verified

/-- No call accepts a snapshot. -/
def Unanchored (s : BookContinuityState) : List Observation → Prop
  | [] => True
  | o :: observations => ¬s.acceptsSnapshot o ∧ (s.step o).Unanchored observations

/-- The record links to the sequence number that the state has kept. -/
def relinks (s : BookContinuityState) : Observation → Prop
  | .book .. => False
  | .record r => r.kind = .sequencedUpdate ∧ s.sessionId = some r.sessionId ∧
      s.sequence.isSome ∧ s.sequence = r.previousSequence

/-- The status is unverified since `s`, and no other sequence number is known than that of `s`. -/
structure Closed (s t : BookContinuityState) : Prop where
  unverified : t.status ≠ .verified
  kept : t.sequence = none ∨ t.sequence = s.sequence ∧ t.sessionId = s.sessionId

namespace Closed

variable {r : BookContinuityRecord} (h : Closed s t)
include h

lemma observeBook (sourceNs receiveNs : ℕ) : Closed s (t.observeBook sourceNs receiveNs) := by
  unfold BookContinuityState.observeBook
  split
  · exact h
  · refine ⟨?_, h.kept⟩
    dsimp only
    split
    · exact h.unverified
    · decide

/-- An update that the state finds linked relinks to the number of `s`. -/
lemma relinks (hkind : r.kind = .sequencedUpdate) (hlinked : t.linked r = true) :
    s.relinks (.record r) := by
  simp only [linked, hkind, reduceCtorEq, false_or, decide_eq_true_eq] at hlinked
  obtain ⟨hsess, hprev, hold, -⟩ := hlinked
  obtain hnone | ⟨hseq, hsame⟩ := h.kept
  · simp [hnone] at hold
  · rw [hseq] at hprev hold
    exact ⟨hkind, hsame ▸ hsess, Option.isSome_of_any hold, hprev⟩

lemma verify (href : t.linked r = true → (t.verify r).status ≠ .verified) :
    Closed s (t.verify r) := by
  unfold BookContinuityState.verify at href ⊢
  split
  · exact { h with  }
  next hcur =>
  split
  · exact ⟨by simp [invalidate], h.kept⟩
  next hchecks =>
  simp only [Bool.or_eq_true, Bool.not_eq_true', not_or, Bool.not_eq_false] at hchecks
  simp [hcur, hchecks] at href

lemma accept (hrel : ¬s.relinks (.record r))
    (hsnaps : r.kind = .snapshot → (t.accept r).status ≠ .verified) : Closed s (t.accept r) := by
  unfold BookContinuityState.accept at hsnaps ⊢
  split
  · split
    · exact { h with  }
    · exact ⟨by simp [invalidate], .inl rfl⟩
  · exact ⟨by simp [invalidate], .inl rfl⟩
  · next hkind =>
    rw [hkind] at hsnaps
    exact h.verify fun _ => hsnaps rfl
  · next hkind => exact h.verify fun hlinked => absurd (h.relinks hkind hlinked) hrel
  · split
    · exact { h with  }
    · exact ⟨by simp [invalidate], h.kept⟩

lemma step {o : Observation} (hrel : ¬s.relinks o)
    (hsnaps : ¬t.acceptsSnapshot o) : Closed s (t.step o) := by
  cases o with
  | book sourceNs receiveNs => exact h.observeBook sourceNs receiveNs
  | record r =>
    have href : r.kind = .snapshot → (t.observe r).status ≠ .verified :=
      fun hkind hver => hsnaps ⟨hkind, hver⟩
    show Closed s (t.observe r)
    unfold observe at href ⊢
    split
    · exact { h with  }
    next hfresh =>
    split
    · exact { h with  }
    next hnewer =>
    simp only [hfresh, hnewer, if_false] at href
    have hnoted : Closed s { t with
        lastEvidenceId := r.evidenceId, lastEvidenceSourceNs := r.sourceNs } :=
      { h with  }
    exact hnoted.accept hrel href

lemma run {observations : List Observation}
    (hunanchored : t.Unanchored observations) (hrel : ∀ o ∈ observations, ¬s.relinks o) :
    Closed s (observations.foldl BookContinuityState.step t) := by
  induction observations generalizing t with
  | nil => exact h
  | cons o observations ih =>
    obtain ⟨hsnaps, hrest⟩ := hunanchored
    obtain ⟨hfirst, hrel⟩ := List.forall_mem_cons.1 hrel
    exact ih (h.step hfirst hsnaps) hrest hrel

end Closed

/-- After a gap or a reconnect the status is unverified until a snapshot is accepted, as long as no
update links to the sequence number that the state has kept. -/
theorem continuity_fails_closed (hgap : s.status = .gap ∨ s.status = .reconnect)
    {observations : List Observation} (hunanchored : s.Unanchored observations)
    (hrelinks : ∀ o ∈ observations, ¬s.relinks o) :
    (observations.foldl step s).status ≠ .verified := by
  have hclosed : Closed s s := ⟨by rcases hgap with hgap | hgap <;> simp [hgap], .inr ⟨rfl, rfl⟩⟩
  exact (hclosed.run hunanchored hrelinks).unverified

/-- The state after a book, its snapshot with sequence number 5 in session 1, and a record. -/
def anchoredThen (r : BookContinuityRecord) : BookContinuityState :=
  [.book 10 10, .record {
    evidenceId := 1, kind := .snapshot, sessionId := 1, sequence := some 5
    sourceNs := some 10, receiveNs := 10, bookSourceNs := some 10, bookReceiveNs := some 10 },
    .record r].foldl step {}

/-- Another book, and an update that links to sequence number 5. -/
def relinked : List Observation :=
  [.book 20 20, .record {
    evidenceId := 3, kind := .sequencedUpdate, sessionId := 1, sequence := some 6
    previousSequence := some 5
    sourceNs := some 20, receiveNs := 20, bookSourceNs := some 20, bookReceiveNs := some 20 }]

lemma unanchored_relinked : s.Unanchored relinked := by
  refine ⟨fun h => h, ?_, trivial⟩
  rintro ⟨hkind, -⟩
  cases hkind

theorem continuity_fails_closed_explicit_gap :
    let gap := anchoredThen { evidenceId := 2, kind := .gap, sessionId := 1, receiveNs := 11 }
    gap.status = .gap ∧ (relinked.foldl step gap).status ≠ .verified := by
  refine ⟨by decide, continuity_fails_closed (.inl (by decide)) unanchored_relinked ?_⟩
  rintro (_ | r) - hrel
  · exact hrel
  · exact absurd hrel.2.2.1 (by decide)

/-- A heartbeat with another sequence number is a gap that keeps number 5. A book and an update that
links to it then make the status verified, without a snapshot. -/
theorem gap_verified_without_snapshot : let gap := anchoredThen {
      evidenceId := 2, kind := .sequenceHeartbeat, sessionId := 1, sequence := some 6
      sourceNs := some 11, receiveNs := 11 }
    gap.status = .gap ∧ gap.Unanchored relinked ∧ (relinked.foldl step gap).status = .verified :=
  ⟨by decide, unanchored_relinked, by decide⟩

end BookContinuityState

end HexAgent.Simulator
