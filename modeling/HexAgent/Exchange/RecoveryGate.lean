import HexAgent.ToMathlib.Trace
import Mathlib.Algebra.Group.Nat.Defs

/-!
# The recovery gate of the private feed

One atomic word carries the gate and a revision. Its low bit says that the feed is recovering; the
upper bits count recovery assertions. A recovery that wants to open the gate captures the word
before its work and swaps it later, so an assertion in between makes the swap fail.

The operations of `UserFeedHealth` are taken apart into their atomic steps, and any number of
threads interleave them. The word is a natural number below `2 ^ 64`; `word & 1`, `word & !1` and
`word | 1` are written with the remainder modulo two.
-/

namespace HexAgent.Exchange

open Trace

/-! ## The word -/

/-- `u64::MAX`. -/
def wordMax : ℕ := 2 ^ 64 - 1

/-- `word & !1`. -/
def clearGate (word : ℕ) : ℕ := word - word % 2

/-- `word | 1`. -/
def setGate (word : ℕ) : ℕ := word - word % 2 + 1

/-- The update of `set_recovering(true)`. The revision saturates, so that exhaustion keeps the gate
closed. -/
def assertRecovery (word : ℕ) : ℕ := setGate (min (word + 2) wordMax)

/-- `try_finish_recovery`: the new word, and whether the swap succeeded. -/
def tryFinishRecovery (word certificate : ℕ) : ℕ × Bool :=
  if certificate % 2 = 0 ∨ certificate = wordMax then (word, false)
  else if word = certificate then (clearGate certificate, true)
  else (word, false)

/-! ## Interleavings -/

/-- What a thread is in the middle of. -/
inductive Task
  | idle
  /-- The loop of `set_recovering(true)` has read the word. -/
  | asserting (seen : ℕ)
  /-- `set_recovering(false)` has captured its own certificate. -/
  | clearing (certificate : ℕ)

/-- The shared word and the tasks of the threads. -/
structure Gate (T : Type*) where
  word : ℕ
  tasks : T → Task

/-- `UserFeedHealth::new` starts closed. -/
def Gate.new {T : Type*} : Gate T := ⟨1, fun _ => .idle⟩

/-- Atomic steps, with the values that they read and whether a swap succeeded. -/
inductive GateEvent (T : Type*)
  /-- `recovery_certificate` returns the word. -/
  | capture (thread : T) (certificate : ℕ)
  /-- `try_finish_recovery` returns. -/
  | tryFinish (thread : T) (certificate : ℕ) (ok : Bool)
  | assertLoad (thread : T)
  | assertSwap (thread : T) (ok : Bool)
  | clearLoad (thread : T) (certificate : ℕ)
  | clearSwap (thread : T) (certificate : ℕ) (ok : Bool)

namespace GateEvent

variable {T : Type*}

/-- The event captures a certificate. -/
def Captures (certificate : ℕ) : GateEvent T → Prop
  | capture _ c | clearLoad _ c => c = certificate
  | _ => False

/-- The event opens the gate with a certificate. -/
def Finishes (certificate : ℕ) : GateEvent T → Prop
  | tryFinish _ c ok | clearSwap _ c ok => c = certificate ∧ ok = true
  | _ => False

/-- A recovery assertion takes effect. -/
def Asserts : GateEvent T → Prop
  | assertSwap _ ok => ok = true
  | _ => False

end GateEvent

namespace Gate

variable {T : Type*} [DecidableEq T] {g g' : Gate T} {e : GateEvent T} {c : ℕ}

/-- Give a thread another task. -/
def setTask (g : Gate T) (thread : T) (task : Task) : Gate T :=
  { g with tasks := Function.update g.tasks thread task }

/-- One atomic step of one thread. -/
inductive Step (g : Gate T) : GateEvent T → Gate T → Prop
  | capture (thread : T) (h : g.tasks thread = .idle) : Step g (.capture thread g.word) g
  | tryFinish (thread : T) (certificate : ℕ) (h : g.tasks thread = .idle) :
    Step g (.tryFinish thread certificate (tryFinishRecovery g.word certificate).2)
      { g with word := (tryFinishRecovery g.word certificate).1 }
  | assertLoad (thread : T) (h : g.tasks thread = .idle) :
    Step g (.assertLoad thread) (g.setTask thread (.asserting g.word))
  | assertSwap (thread : T) (h : g.tasks thread = .asserting g.word) :
    Step g (.assertSwap thread true)
      { g.setTask thread .idle with word := assertRecovery g.word }
  /-- The swap of `fetch_update` is weak: it may fail also when the word is the one seen. -/
  | assertRetry (thread : T) (seen : ℕ) (h : g.tasks thread = .asserting seen) :
    Step g (.assertSwap thread false) (g.setTask thread (.asserting g.word))
  | clearLoad (thread : T) (h : g.tasks thread = .idle) :
    Step g (.clearLoad thread g.word) (g.setTask thread (.clearing g.word))
  | clearSwap (thread : T) (certificate : ℕ) (h : g.tasks thread = .clearing certificate) :
    Step g (.clearSwap thread certificate (tryFinishRecovery g.word certificate).2)
      { g.setTask thread .idle with word := (tryFinishRecovery g.word certificate).1 }

/-- What a step does to the word: an assertion raises it, a finished recovery opens the gate of the
word that it names, and nothing else writes it. -/
lemma Step.word (h : g.Step e g') :
    (e.Asserts ∧ g'.word = assertRecovery g.word) ∨
    (¬e.Asserts ∧ e.Finishes g.word ∧ g.word % 2 = 1 ∧ g.word ≠ wordMax ∧
      g'.word = clearGate g.word) ∨
    (¬e.Asserts ∧ (∀ c, ¬e.Finishes c) ∧ g'.word = g.word) := by
  -- The two ways to finish differ only in where the certificate comes from.
  have hfinish c :
      ((tryFinishRecovery g.word c).2 = true ∧ c = g.word ∧ g.word % 2 = 1 ∧ g.word ≠ wordMax ∧
        (tryFinishRecovery g.word c).1 = clearGate g.word) ∨
      ((tryFinishRecovery g.word c).2 = false ∧ (tryFinishRecovery g.word c).1 = g.word) := by
    unfold tryFinishRecovery
    split
    · exact .inr ⟨rfl, rfl⟩
    next hcheck =>
    split
    · next hword =>
      rw [hword]
      exact .inl ⟨rfl, rfl, by omega, fun hmax => hcheck (.inr hmax), rfl⟩
    · exact .inr ⟨rfl, rfl⟩
  cases h with
  | capture thread h | assertLoad thread h | clearLoad thread h =>
    exact .inr (.inr ⟨id, fun c => id, rfl⟩)
  | assertSwap thread h => exact .inl ⟨rfl, rfl⟩
  | assertRetry thread seen h => exact .inr (.inr ⟨Bool.false_ne_true, fun c => id, rfl⟩)
  | tryFinish thread c h | clearSwap thread c h =>
    rcases hfinish c with ⟨hok, hc, hodd, hmax, hword⟩ | ⟨hok, hword⟩
    · exact .inr (.inl ⟨id, ⟨hc, hok⟩, hodd, hmax, hword⟩)
    · refine .inr (.inr ⟨id, fun c' hfin => ?_, hword⟩)
      rw [hok] at hfin
      cases hfin.2

/-! ### Certificates -/

/-- The word carries at least the revision of a certificate, or the revision is exhausted. -/
def Reached (certificate : ℕ) (g : Gate T) : Prop :=
  certificate / 2 ≤ g.word / 2 ∨ g.word = wordMax

/-- No certificate with this value can open the gate any more: the revision moved on, or it is
exhausted. -/
def Passed (certificate : ℕ) (g : Gate T) : Prop :=
  certificate / 2 < g.word / 2 ∨ g.word = wordMax

/-- An assertion advances the revision or exhausts it. -/
lemma assertRecovery_spec (word : ℕ) :
    assertRecovery word / 2 = word / 2 + 1 ∨ assertRecovery word = wordMax := by
  unfold assertRecovery setGate wordMax
  omega

lemma assertRecovery_wordMax : assertRecovery wordMax = wordMax := by
  decide

omit [DecidableEq T] in
lemma Reached.assertRecovery (h : Reached c g) (hword : g'.word = assertRecovery g.word) :
    Passed c g' := by
  unfold Passed
  rw [hword]
  rcases h with hrevision | hmax
  · rcases assertRecovery_spec g.word with hnext | hmax
    · exact .inl (by omega)
    · exact .inr hmax
  · rw [hmax, assertRecovery_wordMax]
    exact .inr rfl

omit [DecidableEq T] in
lemma Passed.reached (h : Passed c g) : Reached c g := h.imp_left Nat.le_of_lt

lemma Reached.step (h : Reached c g) (hstep : g.Step e g') : Reached c g' := by
  rcases hstep.word with ⟨-, hword⟩ | ⟨-, -, hodd, hopen, hword⟩ | ⟨-, -, hword⟩
  · exact (h.assertRecovery hword).reached
  · -- Opening the gate keeps the revision.
    unfold Reached at h ⊢
    rw [hword, clearGate]
    exact .inl (by omega)
  · unfold Reached at h ⊢
    rw [hword]
    exact h

lemma Passed.step (h : Passed c g) (hstep : g.Step e g') : Passed c g' := by
  rcases hstep.word with ⟨-, hword⟩ | ⟨-, -, hodd, hopen, hword⟩ | ⟨-, -, hword⟩
  · exact h.reached.assertRecovery hword
  · unfold Passed at h ⊢
    rw [hword, clearGate]
    exact .inl (by omega)
  · unfold Passed at h ⊢
    rw [hword]
    exact h

/-- A successful swap names the word, whose revision has passed the certificate. -/
lemma Passed.not_finishes (h : Passed c g) (hstep : g.Step e g') : ¬e.Finishes c := by
  intro hfin
  rcases hstep.word with ⟨hass, -⟩ | ⟨-, hword, -, hopen, -⟩ | ⟨-, hnone, -⟩
  · cases e <;> first | exact hass | exact hfin
  · have hcert : g.word = c := by
      cases e with
      | tryFinish _ _ _ | clearSwap _ _ _ => exact hword.1.symm.trans hfin.1
      | _ => exact hfin.elim
    rcases h with hrev | hmax
    · omega
    · exact hopen hmax
  · exact hnone c hfin

lemma reached_of_captures (hstep : g.Step e g') (he : e.Captures c) : Reached c g' := by
  cases hstep with
  | capture thread h | clearLoad thread h =>
    exact .inl (Nat.div_le_div_right (Nat.le_of_eq he.symm))
  | _ => exact he.elim

/-- A certificate only opens the gate if no assertion took effect since its capture. -/
lemma not_asserted_of_finishes {start : Gate T} {before between after : List (GateEvent T)}
    {first last : GateEvent T}
    (hrun : Trace Step start (before ++ first :: (between ++ last :: after)) g)
    (hfirst : first.Captures c) (hlast : last.Finishes c) : ∀ e ∈ between, ¬e.Asserts := by
  intro e he hass
  obtain ⟨left, right, rfl⟩ := List.append_of_mem he
  rw [List.append_assoc] at hrun
  obtain ⟨g₀, -, hrun⟩ := append_iff.1 hrun
  obtain ⟨g₁, hcapt, hrun⟩ := cons_iff.1 hrun
  obtain ⟨g₂, hleft, hrun⟩ := append_iff.1 hrun
  obtain ⟨g₃, hassert, hrun⟩ := cons_iff.1 hrun
  obtain ⟨g₄, hright, hrun⟩ := append_iff.1 hrun
  obtain ⟨g₅, hfin, -⟩ := cons_iff.1 hrun
  -- Reached at the capture, passed at the assertion, and passed certificates stay passed.
  have hreached : Reached c g₂ :=
    hleft.invariant (fun _ _ _ h hstep => h.step hstep) (reached_of_captures hcapt hfirst)
  have hpassed : Passed c g₃ := by
    rcases hassert.word with ⟨-, hword⟩ | ⟨hnot, -⟩ | ⟨hnot, -⟩
    · exact hreached.assertRecovery hword
    · exact absurd hass hnot
    · exact absurd hass hnot
  have hpassed' : Passed c g₄ := hright.invariant (fun _ _ _ h hstep => h.step hstep) hpassed
  exact hpassed'.not_finishes hfin hlast

end Gate

end HexAgent.Exchange
