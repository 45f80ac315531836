import Mathlib.Data.List.AList
import Mathlib.Tactic.Common

/-!
# Bounded windows of ranks

A rank window remembers, for a bounded number of keys, the highest rank that was stored for the key.
Every new rank is also queued; when the queue is longer than the capacity, its oldest entries leave,
and an entry that leaves takes its key with it unless the key has got another rank since.

Eviction only forgets: what a lookup returns was stored, and a key that is still there has the rank
that was stored for it last.
-/

/-- Ranks of keys, with the queue of what was stored, oldest first. -/
structure RankWindow (α : Type*) where
  capacity : ℕ
  ranks : AList fun _ : α => ℕ := ∅
  order : List (α × ℕ) := []

namespace RankWindow

variable {α : Type*} [DecidableEq α] {rank : ℕ}

/-- The key already has this rank or a higher one. -/
def seen (w : RankWindow α) (a : α) (rank : ℕ) : Bool := (w.ranks.lookup a).any (rank ≤ ·)

/-- Drop the oldest entries until the queue fits. -/
def evict (capacity : ℕ) : List (α × ℕ) → (AList fun _ : α => ℕ) → RankWindow α
  | [], ranks => ⟨capacity, ranks, []⟩
  | e :: order, ranks =>
    if capacity < (e :: order).length then
      evict capacity order (if ranks.lookup e.1 = some e.2 then ranks.erase e.1 else ranks)
    else ⟨capacity, ranks, e :: order⟩

/-- Store a rank, unless the key already has it or a higher one. -/
def remember (w : RankWindow α) (a : α) (rank : ℕ) : RankWindow α :=
  if w.seen a rank then w
  else evict w.capacity (w.order ++ [(a, rank)]) (w.ranks.insert a rank)

lemma seen_eq_true_iff {w : RankWindow α} {a : α} :
    w.seen a rank = true ↔ ∃ r, w.ranks.lookup a = some r ∧ rank ≤ r := by
  unfold seen
  cases w.ranks.lookup a <;> simp

/-- Eviction only forgets. -/
lemma lookup_evict (capacity : ℕ) (order : List (α × ℕ)) (ranks : AList fun _ => ℕ) (a : α) :
    (evict capacity order ranks).ranks.lookup a = none ∨
      (evict capacity order ranks).ranks.lookup a = ranks.lookup a := by
  induction order generalizing ranks with
  | nil => exact .inr rfl
  | cons e order ih =>
    unfold evict
    split
    · rcases ih (if ranks.lookup e.1 = some e.2 then ranks.erase e.1 else ranks) with hnone | hsame
      · exact .inl hnone
      · rw [hsame]
        split
        · by_cases ha : a = e.1
          · rw [ha]
            exact .inl (AList.lookup_erase _ _)
          · exact .inr (AList.lookup_erase_ne ha)
        · exact .inr rfl
    · exact .inr rfl

/-- A lookup after a store returns what it would without eviction, or nothing. -/
lemma lookup_remember (w : RankWindow α) (a b : α) (rank : ℕ) :
    (w.remember a rank).ranks.lookup b = none ∨
      (w.remember a rank).ranks.lookup b =
        if b = a ∧ w.seen a rank = false then some rank else w.ranks.lookup b := by
  unfold remember
  split
  · next hseen =>
    rw [if_neg fun h => by rw [hseen] at h; cases h.2]
    exact .inr rfl
  next hseen =>
  refine (lookup_evict _ _ _ b).imp_right fun h => h.trans ?_
  by_cases hb : b = a
  · rw [hb, AList.lookup_insert, if_pos ⟨rfl, Bool.eq_false_iff.2 hseen⟩]
  · rw [AList.lookup_insert_ne hb, if_neg fun h => hb h.1]

/-- A key that is still there has its latest rank. -/
lemma lookup_remember_of_isSome {w : RankWindow α} {a b : α}
    (h : ((w.remember a rank).ranks.lookup b).isSome) :
    (w.remember a rank).ranks.lookup b =
      if b = a ∧ w.seen a rank = false then some rank else w.ranks.lookup b := by
  rcases w.lookup_remember a b rank with hnone | hsame
  · rw [hnone] at h
    cases h
  · exact hsame

end RankWindow
