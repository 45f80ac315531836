import Mathlib.Data.List.Basic

/-!
# Traces of a labelled step relation

`Trace step s as s'` says that the labels `as`, taken in order from `s`, lead to `s'`. A guarded
or partial transition function is the special case in which `step` also states the guard or that
the call succeeded. The two induction rules are stated once here: a preserved predicate holds at
the end of every trace (`Trace.invariant`), and a relation to a second, deterministic system that
takes the same labels is kept (`Trace.simulation`). A property of what has happened on the way is
stated over the trace of a `Logged` step.
-/

variable {σ α τ ε : Type*}

/-- The labels `as` lead from one state to another. -/
inductive Trace (step : σ → α → σ → Prop) : σ → List α → σ → Prop
  /-- The empty trace. -/
  | nil (s : σ) : Trace step s [] s
  /-- One step followed by a trace. -/
  | cons {s s' s'' : σ} {a : α} {as : List α} :
      step s a s' → Trace step s' as s'' → Trace step s (a :: as) s''

/-- A step relation with a log beside the state. What a step adds to the log, newest first, is read
off the states before and after it and its label; the log does not influence the steps. -/
def Logged (step : σ → α → σ → Prop) (emit : σ → α → σ → List ε) :
    σ × List ε → α → σ × List ε → Prop :=
  fun s a s' => step s.1 a s'.1 ∧ s'.2 = emit s.1 a s'.1 ++ s.2

namespace Trace

variable {step : σ → α → σ → Prop} {s s' : σ} {as : List α}

/-- A predicate that every step preserves holds at the end of every trace. -/
lemma invariant {P : σ → Prop} (hstep : ∀ s a s', P s → step s a s' → P s')
    (h : Trace step s as s') (hs : P s) : P s' := by
  induction h with
  | nil => exact hs
  | cons h₁ _ ih => exact ih (hstep _ _ _ hs h₁)

/-- A predicate of the state and of the labels so far that every step preserves holds at the end of
every trace. -/
lemma invariant_history {P : List α → σ → Prop}
    (hstep : ∀ as s a s', P as s → step s a s' → P (as ++ [a]) s') (h : Trace step s as s')
    (hs : P [] s) : P as s' := by
  suffices haux : ∀ before, P before s → P (before ++ as) s' from haux [] hs
  clear hs
  induction h with
  | nil => exact fun before hpre => (List.append_nil before).symm ▸ hpre
  | cons h₁ _ ih =>
    intro before hpre
    have hnext := ih _ (hstep _ _ _ _ hpre h₁)
    rwa [List.append_assoc] at hnext

/-- A trace of a concatenation passes through a state between the parts. -/
lemma append_iff {bs : List α} :
    Trace step s (as ++ bs) s' ↔ ∃ t, Trace step s as t ∧ Trace step t bs s' := by
  constructor
  · intro h
    induction as generalizing s with
    | nil => exact ⟨s, .nil s, h⟩
    | cons a as ih =>
      cases h with
      | cons h₁ h₂ =>
        obtain ⟨t, hleft, hright⟩ := ih h₂
        exact ⟨t, .cons h₁ hleft, hright⟩
  · rintro ⟨t, hleft, hright⟩
    induction hleft with
    | nil => exact hright
    | cons h₁ _ ih => exact .cons h₁ (ih hright)

lemma cons_iff {a : α} : Trace step s (a :: as) s' ↔ ∃ t, step s a t ∧ Trace step t as s' := by
  constructor
  · rintro (_ | ⟨h₁, h₂⟩)
    exact ⟨_, h₁, h₂⟩
  · rintro ⟨t, h₁, h₂⟩
    exact .cons h₁ h₂

/-- A relation to a deterministic system that every step preserves holds at the end of every
trace. -/
lemma simulation {R : σ → τ → Prop} {next : τ → α → τ}
    (hstep : ∀ s a s' m, R s m → step s a s' → R s' (next m a)) (h : Trace step s as s') {m : τ}
    (hs : R s m) : R s' (as.foldl next m) := by
  induction h generalizing m with
  | nil => exact hs
  | cons h₁ _ ih => exact ih (hstep _ _ _ _ hs h₁)

end Trace
