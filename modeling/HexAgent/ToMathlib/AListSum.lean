import Mathlib.Data.List.AList
import Mathlib.Algebra.BigOperators.Group.List.Basic
import Mathlib.Algebra.BigOperators.Group.Finset.Basic
import Mathlib.Algebra.Order.BigOperators.Group.List
import Mathlib.Algebra.Order.Group.Unbundled.Basic
import Mathlib.Tactic.Abel

/-!
# Sums over the rows of a finite map

`AList.sumBy f m` adds `f k v` over the rows of `m`. Inserting or replacing one row changes the
sum by the difference of that row's contribution (`sumBy_insert`), which is what a running
counter kept beside the map has to follow. A three-way merge of maps adds up the changes of both
sides (`IsMerge.sumBy_add`).
-/

/-- A loop that moves a measured value by the contribution of each item. -/
lemma List.foldl_measure {σ ι M : Type*} [AddMonoid M] {f : σ → ι → σ} {g : ι → M} (v : σ → M)
    (hfg : ∀ s e, v (f s e) = v s + g e) (l : List ι) (s : σ) :
    v (l.foldl f s) = v s + (l.map g).sum := by
  induction l generalizing s with
  | nil => simp
  | cons e l ih => rw [foldl_cons, ih, hfg, map_cons, sum_cons, add_assoc]

namespace AList

open List

variable {α : Type*} {β : α → Type*} {M : Type*}

/-- Sum of `f` over the rows of a map. -/
def sumBy [AddMonoid M] (f : (a : α) → β a → M) (m : AList β) : M :=
  (m.entries.map fun e => f e.1 e.2).sum

/-- Contribution of a row that may be absent. -/
def valueAt [DecidableEq α] [Zero M] (f : (a : α) → β a → M) (m : AList β) (a : α) : M :=
  (m.lookup a).elim 0 (f a)

section AddMonoid

variable [AddMonoid M] (f : (a : α) → β a → M)

@[simp] lemma sumBy_empty : (∅ : AList β).sumBy f = 0 := rfl

@[simp] lemma sumBy_zero (m : AList β) : m.sumBy (fun _ _ => (0 : M)) = 0 := by
  simp [sumBy]

end AddMonoid

lemma sumBy_add [AddCommMonoid M] (f g : (a : α) → β a → M) (m : AList β) :
    (m.sumBy fun a b => f a b + g a b) = m.sumBy f + m.sumBy g :=
  sum_map_add

lemma sumBy_sub [AddCommGroup M] (f g : (a : α) → β a → M) (m : AList β) :
    (m.sumBy fun a b => f a b - g a b) = m.sumBy f - m.sumBy g := by
  have hsum := sumBy_add (fun a b => f a b - g a b) g m
  simp only [sub_add_cancel] at hsum
  rw [hsum, add_sub_cancel_right]

section Lookup

variable [DecidableEq α] [Zero M] {f : (a : α) → β a → M} {m : AList β} {a : α}

lemma valueAt_of_lookup {b : β a} (h : m.lookup a = some b) : m.valueAt f a = f a b := by
  simp [valueAt, h]

lemma valueAt_of_lookup_none (h : m.lookup a = none) : m.valueAt f a = 0 := by
  simp [valueAt, h]

lemma valueAt_congr {n : AList β} (h : m.lookup a = n.lookup a) :
    m.valueAt f a = n.valueAt f a := by
  rw [valueAt, valueAt, h]

/-- What holds of the written row and of the rows before holds of every row. -/
lemma forall_lookup_insert {P : (a : α) → β a → Prop} {b : β a} (hnew : P a b)
    (hold : ∀ a b, m.lookup a = some b → P a b) (a' : α) (b' : β a')
    (h : (m.insert a b).lookup a' = some b') : P a' b' := by
  by_cases ha : a' = a
  · subst ha
    rw [lookup_insert] at h
    cases h
    exact hnew
  · rw [lookup_insert_ne ha] at h
    exact hold a' b' h

lemma lookup_of_erase {a' : α} {b' : β a'} (h : (m.erase a).lookup a' = some b') :
    m.lookup a' = some b' := by
  have hne : a' ≠ a := by
    rintro rfl
    simp at h
  rwa [lookup_erase_ne hne] at h

end Lookup

lemma mem_entries_iff [DecidableEq α] {m : AList β} {e : Sigma β} :
    e ∈ m.entries ↔ m.lookup e.1 = some e.2 := by
  rw [← Option.mem_def, mem_lookup_iff]

lemma sumBy_congr [DecidableEq α] [AddMonoid M] {f g : (a : α) → β a → M} {m : AList β}
    (h : ∀ a b, m.lookup a = some b → f a b = g a b) : m.sumBy f = m.sumBy g := by
  refine congrArg sum (map_congr_left fun e he => ?_)
  exact h e.1 e.2 (mem_entries_iff.1 he)

/-- A sum depends on what the map looks up, not on the order of its rows. -/
lemma sumBy_of_lookup_eq [DecidableEq α] [AddCommMonoid M] (f : (a : α) → β a → M)
    {m n : AList β} (h : ∀ a, m.lookup a = n.lookup a) : m.sumBy f = n.sumBy f := by
  have hperm : m.entries.Perm n.entries :=
    lookup_ext m.nodupKeys n.nodupKeys fun a b => by
      show b ∈ m.lookup a ↔ b ∈ n.lookup a
      rw [h a]
  exact (hperm.map _).sum_eq

section Group

variable [DecidableEq α] [AddCommGroup M] (f : (a : α) → β a → M) (m : AList β) (a : α) (b : β a)

lemma sumBy_insert_of_notMem (h : a ∉ m) : (m.insert a b).sumBy f = m.sumBy f + f a b := by
  rw [sumBy, sumBy, entries_insert_of_notMem h, map_cons, sum_cons, add_comm]

lemma sumBy_erase : (m.erase a).sumBy f = m.sumBy f - m.valueAt f a := by
  by_cases ha : a ∈ m
  · obtain ⟨b, hb⟩ := Option.isSome_iff_exists.1 (lookup_isSome.2 ha)
    -- The map is a permutation of the erased map with the row put back.
    have hperm : m.entries.Perm (⟨a, b⟩ :: (m.erase a).entries) :=
      perm_ext_iff_of_nodup m.nodupKeys.nodup (NodupKeys.nodup
        (nodupKeys_cons.2 ⟨by
          rw [← AList.keys, ← AList.mem_keys]
          simp, (m.erase a).nodupKeys⟩)) |>.mpr fun e => by
        rw [mem_cons, mem_entries_iff, mem_entries_iff]
        obtain ⟨a', b'⟩ := e
        by_cases h : a' = a
        · subst h
          simp [hb, eq_comm]
        · simp [lookup_erase_ne h, h]
    rw [valueAt_of_lookup hb, sumBy, sumBy, (hperm.map _).sum_eq, map_cons, sum_cons]
    abel
  · have hnone := lookup_eq_none.2 ha
    have hsame : m.erase a = m := AList.ext (kerase_of_notMem_keys ha)
    rw [hsame, valueAt_of_lookup_none hnone, sub_zero]

/-- Writing one row changes the sum by the change of that row's contribution. -/
lemma sumBy_insert : (m.insert a b).sumBy f = m.sumBy f + (f a b - m.valueAt f a) := by
  have herase : m.insert a b = (m.erase a).insert a b := by
    refine AList.ext ?_
    rw [entries_insert, entries_insert_of_notMem (by simp)]
    rfl
  rw [herase, sumBy_insert_of_notMem f _ a b (by simp), sumBy_erase]
  abel

end Group

/-! ### Merges -/

section Merge

variable [DecidableEq α] [AddCommGroup M] (f : (a : α) → β a → M) {m n : AList β}

open Finset in
/-- A sum over the rows is a sum over any set of keys that contains theirs. -/
lemma sumBy_eq_sum {S : Finset α} (hS : ∀ a ∈ m, a ∈ S) : m.sumBy f = ∑ a ∈ S, m.valueAt f a := by
  have hrows : m.sumBy f = (m.keys.map (m.valueAt f)).sum := by
    rw [sumBy, keys, List.keys, List.map_map]
    refine congrArg List.sum (List.map_congr_left fun e he => ?_)
    exact (valueAt_of_lookup (mem_entries_iff.1 he)).symm
  rw [hrows, ← List.sum_toFinset _ m.keys_nodup]
  refine sum_subset (fun a ha => hS a (List.mem_toFinset.1 ha)) fun a _ ha => ?_
  refine valueAt_of_lookup_none (lookup_eq_none.2 fun hmem => ha ?_)
  exact List.mem_toFinset.2 hmem

/-- Sums of maps whose values add up key by key. -/
lemma sumBy_add_of_valueAt {x y : AList β}
    (h : ∀ a, m.valueAt f a + n.valueAt f a = x.valueAt f a + y.valueAt f a) :
    m.sumBy f + n.sumBy f = x.sumBy f + y.sumBy f := by
  -- All four maps are summed over the keys of all four.
  let S : Finset α := (m.keys ++ n.keys ++ x.keys ++ y.keys).toFinset
  have hm : ∀ a ∈ m, a ∈ S := fun a (ha : a ∈ m.keys) => by simp [S, ha]
  have hn : ∀ a ∈ n, a ∈ S := fun a (ha : a ∈ n.keys) => by simp [S, ha]
  have hx : ∀ a ∈ x, a ∈ S := fun a (ha : a ∈ x.keys) => by simp [S, ha]
  have hy : ∀ a ∈ y, a ∈ S := fun a (ha : a ∈ y.keys) => by simp [S, ha]
  rw [sumBy_eq_sum f hm, sumBy_eq_sum f hn, sumBy_eq_sum f hx, sumBy_eq_sum f hy,
    ← Finset.sum_add_distrib, ← Finset.sum_add_distrib]
  exact Finset.sum_congr rfl fun a _ => h a

/-- The difference of two sums is a sum over the keys where the maps differ. -/
lemma sumBy_sub_eq_sum {keys : List α} (hkeys : keys.Nodup)
    (h : ∀ a ∉ keys, m.lookup a = n.lookup a) :
    m.sumBy f - n.sumBy f = (keys.map fun a => m.valueAt f a - n.valueAt f a).sum := by
  let S : Finset α := (m.keys ++ n.keys ++ keys).toFinset
  have hm : ∀ a ∈ m, a ∈ S := fun a (ha : a ∈ m.keys) => by simp [S, ha]
  have hn : ∀ a ∈ n, a ∈ S := fun a (ha : a ∈ n.keys) => by simp [S, ha]
  rw [sumBy_eq_sum f hm, sumBy_eq_sum f hn, ← Finset.sum_sub_distrib, ← sum_toFinset _ hkeys]
  refine (Finset.sum_subset (fun a ha => ?_) fun a _ ha => ?_).symm
  · simp [S, mem_toFinset.1 ha]
  · rw [valueAt, valueAt, h a fun hmem => ha (mem_toFinset.2 hmem), sub_self]

/-- The map has at every key the row of the side that changed it. -/
def IsMerge (base left right m : AList β) : Prop :=
  ∀ a, (left.lookup a = base.lookup a ∧ m.lookup a = right.lookup a) ∨
    (right.lookup a = base.lookup a ∧ m.lookup a = left.lookup a)

/-- A merge adds up the changes of both sides. -/
lemma IsMerge.sumBy_add {base left right : AList β} (h : IsMerge base left right m) :
    m.sumBy f + base.sumBy f = left.sumBy f + right.sumBy f := by
  refine sumBy_add_of_valueAt f fun a => ?_
  simp only [valueAt]
  rcases h a with ⟨hbase, hm⟩ | ⟨hbase, hm⟩
  · rw [hm, ← hbase, add_comm]
  · rw [hm, ← hbase]

end Merge

section Order

variable [AddCommGroup M] [LinearOrder M] [IsOrderedAddMonoid M] {f : (a : α) → β a → M}
  {m : AList β}

variable (h : ∀ e ∈ m.entries, 0 ≤ f e.1 e.2)
include h

lemma sumBy_nonneg : 0 ≤ m.sumBy f := by
  refine sum_nonneg fun x hx => ?_
  obtain ⟨e, he, rfl⟩ := mem_map.1 hx
  exact h e he

/-- A row contributes at most the sum when no row contributes negatively. -/
lemma le_sumBy [DecidableEq α] {a : α} {b : β a}
    (hb : m.lookup a = some b) : f a b ≤ m.sumBy f := by
  have hnn : 0 ≤ (m.erase a).sumBy f :=
    sumBy_nonneg fun e he => h e (by
      rw [mem_entries_iff] at he ⊢
      exact lookup_of_erase he)
  rw [sumBy_erase, valueAt_of_lookup hb] at hnn
  exact sub_nonneg.1 hnn

end Order

end AList
