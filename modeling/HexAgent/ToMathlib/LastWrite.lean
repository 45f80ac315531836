import Mathlib.Data.List.Basic

/-!
# Absolute writes

`act w s` performs a write on a state, or fails. Writes are absolute if a write is overwritten by a
later one of the same key and commutes with those of other keys. A list of such writes is then
determined by the last write of every key: a write may be dropped if its key is written again later
(`LastWriteWins.foldlM_append_of_keys`).

The laws are needed for a class of writes only, and on states that satisfy an invariant.
-/

/-- The writes that satisfy `Absolute` are absolute on states that satisfy `Good`. -/
structure LastWriteWins {γ κ σ : Type*} (act : σ → γ → Option σ) (key : γ → κ)
    (Absolute : γ → Prop) (Good : σ → Prop) : Prop where
  good : ∀ {w s t}, Absolute w → Good s → act s w = some t → Good t
  absorb : ∀ {w w' s}, Absolute w → Absolute w' → Good s → key w = key w' →
    (act s w).bind (act · w') = act s w'
  comm : ∀ {w w' s}, Absolute w → Absolute w' → Good s → key w ≠ key w' →
    (act s w).bind (act · w') = (act s w').bind (act · w)

namespace LastWriteWins

variable {γ κ σ : Type*} {act : σ → γ → Option σ} {key : γ → κ} {Absolute : γ → Prop}
  {Good : σ → Prop}

variable (h : LastWriteWins act key Absolute Good)
include h

/-- A write may be dropped if its key is written again. -/
lemma foldlM_cons_of_mem {w : γ} {ws : List γ} {s : σ}
    (hs : Good s) (hw : Absolute w) (hws : ∀ w ∈ ws, Absolute w) (hkey : key w ∈ ws.map key) :
    (w :: ws).foldlM act s = ws.foldlM act s := by
  induction ws generalizing s with
  | nil => cases hkey
  | cons w' ws ih =>
    have hw' := hws w' List.mem_cons_self
    show (act s w).bind (fun t => (act t w').bind (ws.foldlM act)) = (act s w').bind (ws.foldlM act)
    rw [← Option.bind_assoc]
    by_cases heq : key w = key w'
    · rw [h.absorb hw hw' hs heq]
    -- The write moves behind its successor, and is dropped there.
    rw [h.comm hw hw' hs heq, Option.bind_assoc]
    refine Option.bind_congr fun t ht => ?_
    have hmem : key w ∈ ws.map key := by
      rw [List.map_cons, List.mem_cons] at hkey
      exact hkey.resolve_left heq
    exact ih (h.good hw' hs ht) (fun v hv => hws v (.tail _ hv)) hmem

/-- Writes may be dropped if all of their keys are written again. -/
lemma foldlM_append_of_keys {us ws : List γ} {s : σ}
    (hs : Good s) (hus : ∀ w ∈ us, Absolute w) (hws : ∀ w ∈ ws, Absolute w)
    (hkeys : ∀ w ∈ us, key w ∈ ws.map key) : (us ++ ws).foldlM act s = ws.foldlM act s := by
  induction us with
  | nil => rfl
  | cons w us ih =>
    have hrest := ih (fun v hv => hus v (.tail _ hv))
      fun v hv => hkeys v (.tail _ hv)
    rw [← hrest, List.cons_append]
    refine h.foldlM_cons_of_mem hs (hus w (.head _)) (fun v hv => ?_) ?_
    · exact (List.mem_append.1 hv).elim (fun hv => hus v (.tail _ hv)) (hws v)
    · rw [List.map_append]
      exact List.mem_append_right _ (hkeys w (.head _))

end LastWriteWins
