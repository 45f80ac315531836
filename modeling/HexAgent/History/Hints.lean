import Mathlib.Data.List.GetD
import HexAgent.History.Identity

/-!
# Hints at work

A hint that would answer from a certificate has compared all cells of a slot between two loads of
the same even sequence number. In between nothing was written to the slot, so the slot holds a
certificate of exactly this key and generation (`CallOk`). For a key whose store has returned there
is none (`Memory.Revokes`).
-/

namespace HexAgent.History

open Nat

/-! ## Cells of a slot -/

namespace SlotField

variable {length : ℕ}

/-- Position of a cell in the order in which cells are written and compared. -/
def rank : SlotField → ℕ
  | .kind => 0
  | .generation => 1
  | .fingerprint => 2
  | .length => 3
  | .byte index => 4 + index

/-- A byte cell belongs to the key. -/
def Valid (length : ℕ) : SlotField → Prop
  | .byte index => index < length
  | _ => True

lemma rank_injective {f f' : SlotField} (h : f.rank = f'.rank) : f = f' := by
  cases f <;> cases f' <;> simp only [rank] at h <;> first | rfl | omega | skip
  congr 1
  omega

lemma next_some {f f' : SlotField} (h : f.next length = some f') :
    f'.rank = f.rank + 1 ∧ f'.Valid length := by
  cases f with
  | length | byte index =>
    obtain ⟨hlt, h⟩ := (Option.ite_none_right_eq_some ..).1 h
    cases h
    exact ⟨rfl, hlt⟩
  | _ =>
    cases h
    exact ⟨rfl, trivial⟩

lemma next_none {f f' : SlotField} (h : f.next length = none) (hf' : f'.Valid length) :
    f'.rank ≤ f.rank := by
  cases f with
  | length =>
    have hzero : ¬ 0 < length := fun hpos => by
      rw [next, if_pos hpos] at h
      cases h
    cases f' with
    | byte index => exact absurd (zero_lt_of_lt hf') hzero
    | _ => simp [rank]
  | byte index =>
    have hlast : ¬ index + 1 < length := fun hlt => by
      rw [next, if_pos hlt] at h
      cases h
    cases f' with
    | byte index' =>
      have hlt : index' < length := hf'
      simp only [rank]
      omega
    | _ =>
      simp only [rank]
      omega
  | _ => cases h

end SlotField

namespace VerifiedAbsence

variable {slot : VerifiedAbsence} {c c' : Certificate} {f : SlotField} {n : ℕ}

/-- The first cells agree with the certificate. -/
def Agrees (slot : VerifiedAbsence) (c : Certificate) (n : ℕ) : Prop :=
  ∀ f : SlotField, f.rank < n → f.Valid c.bytes.length → slot.read f = c.read f

/-- The slot has the certificate. -/
def Holds (slot : VerifiedAbsence) (c : Certificate) : Prop :=
  ∀ f : SlotField, f.Valid c.bytes.length → slot.read f = c.read f

/-- A certificate was recorded and is not being replaced. -/
def Complete (slot : VerifiedAbsence) : Prop := slot.sequence ≠ 0 ∧ slot.sequence % 2 = 0

lemma read_write (slot : VerifiedAbsence) (c : Certificate) (f f' : SlotField) :
    (slot.write c f).read f' = if f' = f then c.read f else slot.read f' := by
  cases f with
  | byte index =>
    cases f' with
    | byte index' =>
      simp only [write, read, Certificate.read, Function.update_apply, SlotField.byte.injEq]
      split <;> rfl
    | _ => rfl
  | _ => cases f' <;> rfl

@[simp] lemma sequence_write (slot : VerifiedAbsence) (c : Certificate) (f : SlotField) :
    (slot.write c f).sequence = slot.sequence := by
  cases f <;> rfl

lemma Agrees.succ (h : slot.Agrees c f.rank) (hf : slot.read f = c.read f) :
    slot.Agrees c (f.rank + 1) := by
  intro f' hrank hval
  by_cases heq : f'.rank = f.rank
  · rw [SlotField.rank_injective heq]
    exact hf
  · exact h f' (by omega) hval

lemma Agrees.holds (h : slot.Agrees c (f.rank + 1)) (hlast : f.next c.bytes.length = none) :
    slot.Holds c :=
  fun f' hval => h f' (lt_succ_of_le (SlotField.next_none hlast hval)) hval

lemma Agrees.write (h : slot.Agrees c f.rank) : (slot.write c f).Agrees c (f.rank + 1) := by
  intro f' hrank hval
  rw [read_write]
  split
  · next heq => rw [heq]
  next hne =>
  refine h f' ?_ hval
  have hrankne : f'.rank ≠ f.rank := fun heq => hne (SlotField.rank_injective heq)
  omega

/-- A slot has one certificate at most. -/
lemma Holds.unique (h : slot.Holds c) (h' : slot.Holds c') : c = c' := by
  have hkind : c.kind = c'.kind :=
    UInt8.toNat_inj.1 ((h .kind trivial).symm.trans (h' .kind trivial))
  have hgen : c.generation = c'.generation :=
    (h .generation trivial).symm.trans (h' .generation trivial)
  have hlen : c.bytes.length = c'.bytes.length :=
    (h .length trivial).symm.trans (h' .length trivial)
  have hbytes : c.bytes = c'.bytes := by
    refine List.ext_getElem hlen fun i hi hi' => ?_
    have hread : (c.bytes.getD i 0).toNat = (c'.bytes.getD i 0).toNat :=
      (h (.byte i) hi).symm.trans (h' (.byte i) hi')
    rw [List.getD_eq_getElem _ _ hi, List.getD_eq_getElem _ _ hi'] at hread
    exact UInt8.toNat_inj.1 hread
  cases c
  cases hkind
  cases hgen
  cases hbytes
  rfl

/-- What can happen to a slot: nothing, or its sequence number was odd or is raised. -/
def Evolves (slot slot' : VerifiedAbsence) : Prop :=
  slot.sequence ≤ slot'.sequence ∧
    (slot'.sequence = slot.sequence → slot.sequence % 2 = 0 → slot' = slot)

end VerifiedAbsence

/-! ## A hint at work -/

/-- Bound for the operations that are left, for a key of the given length. -/
def HintStage.remaining (length : ℕ) : HintStage → ℕ
  | .filter bits => absenceSlots * (length + 8) + 2 + bits.length
  | .generation => absenceSlots * (length + 8) + 1
  | .sequence slot _ => (absenceSlots - 1 - slot) * (length + 8) + (length + 8)
  | .compare slot _ _ field =>
    (absenceSlots - 1 - slot) * (length + 8) + 3 + (length + 4 - field.rank)
  | .recheckSequence slot _ _ => (absenceSlots - 1 - slot) * (length + 8) + 2
  | .recheckGeneration slot _ => (absenceSlots - 1 - slot) * (length + 8) + 1
  | .returned _ => 0

lemma HintCall.remaining_nextSlot (length : ℕ) (slot : Fin absenceSlots) (gen : ℕ) :
    (nextSlot slot gen).remaining length ≤ (absenceSlots - 1 - slot) * (length + 8) := by
  unfold nextSlot
  split
  · next hlt =>
    have hsucc : absenceSlots - 1 - slot = absenceSlots - 1 - (slot + 1) + 1 := by omega
    show (absenceSlots - 1 - (slot + 1)) * (length + 8) + (length + 8) ≤ _
    rw [hsucc, succ_mul]
  · exact zero_le _

/-- Every operation of a hint brings it closer to its return. -/
lemma HintCall.next_remaining {m : Memory} {call : HintCall}
    (h : ∀ hint, call.stage ≠ .returned hint) :
    ∃ stage, call.next m = some stage ∧
      stage.remaining call.bytes.length < call.stage.remaining call.bytes.length := by
  have hslot slot generation :=
    remaining_nextSlot call.bytes.length slot generation
  unfold next
  generalize call.bytes.length = length at hslot ⊢
  cases hstage : call.stage with
  | filter bits =>
    cases bits with
    | nil =>
      refine ⟨_, rfl, ?_⟩
      simp only [HintStage.remaining]
      omega
    | cons bit bits =>
      refine ⟨_, rfl, ?_⟩
      split <;> simp only [HintStage.remaining, List.length_cons] <;> omega
  | generation =>
    refine ⟨_, rfl, ?_⟩
    simp only [HintStage.remaining, absenceSlots]
    omega
  | sequence slot generation =>
    dsimp only
    split
    · refine ⟨_, rfl, lt_of_le_of_lt (hslot slot generation) ?_⟩
      simp only [HintStage.remaining]
      omega
    · refine ⟨_, rfl, ?_⟩
      simp only [HintStage.remaining, SlotField.rank]
      omega
  | compare slot generation sequence field =>
    dsimp only
    split
    · refine ⟨_, rfl, lt_of_le_of_lt (hslot slot generation) ?_⟩
      simp only [HintStage.remaining]
      omega
    · split
      · refine ⟨_, rfl, lt_of_le_of_lt (hslot slot generation) ?_⟩
        simp only [HintStage.remaining]
        omega
      · split
        · next field' hfield =>
          obtain ⟨hrank, hval⟩ := SlotField.next_some hfield
          have hbound : field'.rank < length + 4 := by
            cases field' with
            | byte index =>
              have hlt : index < length := hval
              simp only [SlotField.rank]
              omega
            | _ =>
              simp only [SlotField.rank]
              omega
          refine ⟨_, rfl, ?_⟩
          simp only [HintStage.remaining]
          omega
        · refine ⟨_, rfl, ?_⟩
          simp only [HintStage.remaining]
          omega
  | recheckSequence slot generation | recheckGeneration slot generation =>
    dsimp only
    split
    · refine ⟨_, rfl, ?_⟩
      simp only [HintStage.remaining]
      omega
    · refine ⟨_, rfl, lt_of_le_of_lt (hslot slot generation) ?_⟩
      simp only [HintStage.remaining]
      omega
  | returned hint => exact absurd hstage (h hint)

/-! ## A hint for a stored key -/

/-- The memory tells that the key is stored. -/
structure Memory.Revokes (m : Memory) (k : StoredKey) : Prop where
  bits : ∀ bit ∈ filterIndices k.kind k.baseKey, m.filter bit = true
  generation_le : k.generation ≤ m.generation
  /-- A certificate of absence is older than the store. -/
  older : k.baseKey ≠ "" → ∀ (i : Fin absenceSlots) (generation : ℕ), (m.absences i).Complete →
    (m.absences i).Holds ⟨k.kind, generation, keyBytes k.baseKey⟩ → generation < k.generation

/-- The memory moves on. -/
structure Memory.Evolves (m m' : Memory) : Prop where
  filter : ∀ bit, m.filter bit = true → m'.filter bit = true
  generation_le : m.generation ≤ m'.generation
  absences : ∀ i, (m.absences i).Evolves (m'.absences i)

/-- The hint asks for this key. -/
def HintCall.AsksFor (call : HintCall) (k : StoredKey) : Prop :=
  k.kind = call.kind ∧ k.baseKey = storedKey call.kind call.identity ∧ k.baseKey ≠ ""

/-- How far a hint for a key that was stored at `published` can have come. What it has compared
holds of the slot as long as the sequence number is the one that it loaded. -/
def CallOk (m : Memory) (call : HintCall) (published : ℕ) : Prop :=
  match call.stage with
  | .filter bits => ∀ bit ∈ bits, m.filter bit = true
  | .generation => True
  | .sequence _ generation => published ≤ generation
  | .compare slot generation sequence field =>
    published ≤ generation ∧ (sequence ≠ 0 ∧ sequence % 2 = 0) ∧
      sequence ≤ (m.absences slot).sequence ∧ ((m.absences slot).sequence = sequence →
        (m.absences slot).Agrees (call.certificate generation) field.rank)
  | .recheckSequence slot generation sequence =>
    published ≤ generation ∧ (sequence ≠ 0 ∧ sequence % 2 = 0) ∧
      sequence ≤ (m.absences slot).sequence ∧ ((m.absences slot).sequence = sequence →
        (m.absences slot).Holds (call.certificate generation))
  -- All cells of a stored key never agree.
  | .recheckGeneration _ _ => False
  | .returned hint => hint = true

namespace CallOk

variable {m m' : Memory} {call : HintCall} {k : StoredKey} {stage : HintStage} {published : ℕ}

/-- The cold owner does not disturb a hint. -/
lemma evolve (h : CallOk m call published) (hm : m.Evolves m') : CallOk m' call published := by
  -- If the sequence number is still the one that was loaded, the slot was not touched.
  have hslot {slot : Fin absenceSlots} {sequence : ℕ} (heven : sequence % 2 = 0)
      (hle : sequence ≤ (m.absences slot).sequence)
      (hsame : (m'.absences slot).sequence = sequence) :
      m'.absences slot = m.absences slot ∧ (m.absences slot).sequence = sequence := by
    obtain ⟨hmono, hframe⟩ := hm.absences slot
    have hseq : (m.absences slot).sequence = sequence := by omega
    exact ⟨hframe (by omega) (by omega), hseq⟩
  unfold CallOk at h ⊢
  cases hstage : call.stage with
  | filter bits =>
    rw [hstage] at h
    exact fun bit hbit => hm.filter bit (h bit hbit)
  | compare slot gen sequence field | recheckSequence slot gen sequence =>
    rw [hstage] at h
    obtain ⟨hpubl, heven, hle, hholds⟩ := h
    refine ⟨hpubl, heven, le_trans hle (hm.absences slot).1, fun hsame => ?_⟩
    obtain ⟨hkeep, hseq⟩ := hslot heven.2 hle hsame
    rw [hkeep]
    exact hholds hseq
  | _ =>
    rw [hstage] at h
    exact h

lemma nextSlot {slot : Fin absenceSlots} {gen : ℕ} (h : published ≤ gen) :
    CallOk m { call with stage := HintCall.nextSlot slot gen } published := by
  by_cases hlast : slot + 1 < absenceSlots
  · rw [HintCall.nextSlot, dif_pos hlast]
    exact h
  · rw [HintCall.nextSlot, dif_neg hlast]
    exact rfl

/-- A hint for a stored key never gets to answer from a certificate. -/
lemma next (h : CallOk m call k.generation) (hm : m.Revokes k) (hk : call.AsksFor k)
    (hnext : call.next m = some stage) : CallOk m { call with stage := stage } k.generation := by
  obtain ⟨hkind, hbase, hnon⟩ := hk
  have hbytes : call.bytes = keyBytes k.baseKey := by
    rw [hbase]
    exact absenceBytes_absenceKey call.kind call.identity
  unfold HintCall.next at hnext
  unfold CallOk at h
  cases hstage : call.stage with
  | filter bits =>
    simp only [hstage] at h hnext
    cases bits with
    | nil =>
      cases hnext
      trivial
    | cons bit bits =>
      dsimp only at hnext
      rw [if_pos (h bit (List.mem_cons_self ..))] at hnext
      cases hnext
      exact fun b hb => h b (.tail _ hb)
  | generation =>
    simp only [hstage] at hnext
    cases hnext
    exact hm.generation_le
  | sequence slot generation =>
    simp only [hstage] at h hnext
    split at hnext
    · cases hnext
      exact nextSlot h
    next hseq =>
    push Not at hseq
    cases hnext
    exact ⟨h, hseq, le_refl _, fun _ f hf => absurd hf (not_lt_zero _)⟩
  | compare slot generation sequence field =>
    simp only [hstage] at h hnext
    obtain ⟨hpubl, heven, hle, hagr⟩ := h
    split at hnext
    · cases hnext
      exact nextSlot hpubl
    next hread =>
    have hread := not_not.1 hread
    split at hnext
    · cases hnext
      exact nextSlot hpubl
    split at hnext
    · next field' hfield =>
      cases hnext
      refine ⟨hpubl, heven, hle, fun hsame => ?_⟩
      rw [(SlotField.next_some hfield).1]
      exact (hagr hsame).succ hread
    next hlast =>
    cases hnext
    exact ⟨hpubl, heven, hle, fun hsame => ((hagr hsame).succ hread).holds hlast⟩
  | recheckSequence slot generation sequence =>
    simp only [hstage] at h hnext
    obtain ⟨hpubl, heven, hle, hholds⟩ := h
    split at hnext
    · next hsame =>
      -- The slot would have a certificate that is as new as the store.
      have hcomp : (m.absences slot).Complete := by
        rw [VerifiedAbsence.Complete, hsame]
        exact heven
      have hcert :
          call.certificate generation = ⟨k.kind, generation, keyBytes k.baseKey⟩ := by
        rw [HintCall.certificate, hbytes, hkind]
      have holder := hm.older hnon slot generation hcomp (hcert ▸ hholds hsame)
      omega
    · cases hnext
      exact nextSlot hpubl
  | recheckGeneration slot generation =>
    simp only [hstage] at h
  | returned hint =>
    simp only [hstage] at hnext
    cases hnext

end CallOk

end HexAgent.History
