import Mathlib.Logic.Function.Basic
import Mathlib.Data.List.Basic

/-!
# Open-addressed tables

An open-addressed table is a family of slots `t : ι → Option α` together with, for every key, the
list of slots its probe sequence visits. A lookup returns the first matching entry on the probe
path, a store overwrites the first slot of the path that is empty or matches, and a deletion
empties one slot in place.

In-place deletion opens holes in other keys' probe paths, so a table does not in general behave
as a map: storing a key in a hole in front of the slot that already holds it leaves two entries
of one key. `Exact` is the invariant that excludes this. Under it the lookups form a finite map,
deletions always preserve it, and a store preserves it provided that it does not stop in front of
a stored copy of its key.
-/

namespace ProbeTable

open Option

variable {ι κ α : Type*}

section

variable (t : ι → Option α) (p : α → Bool) (path : List ι)

/-- First entry on the path that satisfies `p`. -/
def find : Option α :=
  path.findSome? fun i => (t i).filter p

/-- First slot on the path whose entry satisfies `p`. -/
def holder : Option ι :=
  path.find? fun i => (t i).any p

/-- First slot on the path that is empty or whose entry satisfies `p`. -/
def target : Option ι :=
  path.find? fun i => (t i).all p

end

/-- Empty the first slot on the path whose entry satisfies `p`. -/
def eraseFirst [DecidableEq ι] (t : ι → Option α) (p : α → Bool) (path : List ι) : ι → Option α :=
  match holder t p path with
  | some i => Function.update t i none
  | none => t

/-- Empty every slot whose entry satisfies `p`. -/
def eraseWhere (t : ι → Option α) (p : α → Bool) : ι → Option α :=
  fun i => (t i).filter fun a => !p a

/-- Every entry is stored on the probe path of its key, and no key is stored twice. -/
structure Exact (path : κ → List ι) (key : α → κ) (t : ι → Option α) : Prop where
  /-- An entry is reachable from its key. -/
  onPath : ∀ {i a}, t i = some a → i ∈ path (key a)
  /-- A key occupies at most one slot. -/
  unique : ∀ {i j a b}, t i = some a → t j = some b → key a = key b → i = j

section

variable {t : ι → Option α} {p : α → Bool} {path : List ι} {i : ι} {q : α → Bool}

lemma find_isSome_of_mem {a : α}
    (hi : i ∈ path) (ha : t i = some a) (hp : p a = true) : ∃ b, find t p path = some b := by
  rw [← isSome_iff_exists, find, List.findSome?_isSome_iff]
  exact ⟨i, hi, by simp [ha, hp]⟩

lemma exists_of_find_eq_some {a : α}
    (h : find t p path = some a) : ∃ i ∈ path, t i = some a ∧ p a = true := by
  obtain ⟨i, hi, ha⟩ := List.exists_of_findSome?_eq_some h
  rw [filter_eq_some_iff] at ha
  exact ⟨i, hi, ha⟩

lemma holder_eq_some
    (h : holder t p path = some i) : i ∈ path ∧ ∃ a, t i = some a ∧ p a = true := by
  refine ⟨List.mem_of_find?_eq_some h, ?_⟩
  have hp := List.find?_some h
  rwa [any_eq_true] at hp

lemma target_eq_some
    (h : target t p path = some i) : i ∈ path ∧ ∀ a, t i = some a → p a = true := by
  refine ⟨List.mem_of_find?_eq_some h, fun a ha => ?_⟩
  have hp := List.find?_some h
  simpa [ha] using hp

lemma find_congr_pred (h : ∀ i a, t i = some a → p a = q a) : find t p path = find t q path := by
  have hfilter : ∀ i, (t i).filter p = (t i).filter q := fun i => by
    cases ha : t i with
    | none => rfl
    | some a => simp only [filter_some, h i a ha]
  simp only [find, hfilter]

lemma eraseFirst_congr_pred [DecidableEq ι]
    (h : ∀ i a, t i = some a → p a = q a) : eraseFirst t p path = eraseFirst t q path := by
  have hany : ∀ i, (t i).any p = (t i).any q := fun i => by
    cases ha : t i with
    | none => rfl
    | some a => simp only [any_some, h i a ha]
  simp only [eraseFirst, holder, hany]

end

/-! ## Preservation of `Exact` -/

section Exact

variable {path : κ → List ι} {key : α → κ} {t : ι → Option α} {p : α → Bool}

/-- Emptying slots keeps the table exact. -/
lemma Exact.of_subset (ht : Exact path key t) {t' : ι → Option α}
    (h : ∀ i a, t' i = some a → t i = some a) : Exact path key t' where
  onPath ha := ht.onPath (h _ _ ha)
  unique ha hb hab := ht.unique (h _ _ ha) (h _ _ hb) hab

lemma eraseWhere_eq_some {i : ι} {a : α} :
    eraseWhere t p i = some a ↔ t i = some a ∧ p a = false := by
  simp [eraseWhere, filter_eq_some_iff]

lemma Exact.eraseWhere (ht : Exact path key t) (p : α → Bool) : Exact path key (eraseWhere t p) :=
  ht.of_subset fun _ _ h => (eraseWhere_eq_some.1 h).1

section Update

variable [DecidableEq ι]

/-- A store stops at the slot that holds its key if no empty slot comes before it. -/
lemma Exact.target_eq [DecidableEq κ] (ht : Exact path key t) {i : ι} {a : α} (ha : t i = some a)
    (hfull : ∀ j ∈ (path (key a)).takeWhile (· ≠ i), t j ≠ none) :
    target t (fun b => key b == key a) (path (key a)) = some i := by
  have hi := ht.onPath ha
  generalize path (key a) = slots at hi hfull
  unfold target
  induction slots with
  | nil => cases hi
  | cons j slots ih =>
    by_cases hj : j = i
    · rw [List.find?_cons_of_pos (by simp [hj, ha]), hj]
    · rw [List.takeWhile_cons_of_pos (by simpa using hj)] at hfull
      obtain ⟨b, hb⟩ := ne_none_iff_exists'.1 (hfull j List.mem_cons_self)
      -- An entry before `i` has another key, since `i` has this one.
      have hother : ¬key b = key a := fun hkey => hj (ht.unique hb ha hkey)
      rw [List.find?_cons_of_neg (by simpa [hb] using hother)]
      exact ih ((List.mem_cons.1 hi).resolve_left (Ne.symm hj)) fun l hl =>
        hfull l (List.mem_cons_of_mem j hl)

/-- Storing `a` in a slot of its path keeps the table exact, provided that no other slot holds
the key of `a` and that the slot was free or already held that key. -/
lemma Exact.update_some (ht : Exact path key t) {i : ι} {a : α} (hi : i ∈ path (key a))
    (hfree : ∀ j b, t j = some b → key b = key a → j = i) :
    Exact path key (Function.update t i (some a)) where
  onPath {j b} hb := by
    by_cases hj : j = i
    · subst hj
      obtain rfl : a = b := by simpa using hb
      exact hi
    · exact ht.onPath (by simpa [hj] using hb)
  unique {j l b c} hb hc hbc := by
    by_cases hj : j = i <;> by_cases hl : l = i
    · rw [hj, hl]
    · subst hj
      obtain rfl : a = b := by simpa using hb
      exact (hfree l c (by simpa [hl] using hc) hbc.symm).symm
    · subst hl
      obtain rfl : a = c := by simpa using hc
      exact hfree j b (by simpa [hj] using hb) hbc
    · exact ht.unique (by simpa [hj] using hb) (by simpa [hl] using hc) hbc

lemma eraseFirst_eq_some {l : List ι} {i : ι} {a : α} :
    eraseFirst t p l i = some a ↔ t i = some a ∧ holder t p l ≠ some i := by
  unfold eraseFirst
  cases h : holder t p l with
  | none => simp
  | some j =>
    by_cases hij : i = j
    · subst hij
      simp
    · simp [hij, Ne.symm hij]

lemma Exact.eraseFirst (ht : Exact path key t) (p : α → Bool) (l : List ι) :
    Exact path key (eraseFirst t p l) :=
  ht.of_subset fun _ _ h => (eraseFirst_eq_some.1 h).1

end Update

end Exact

/-! ## The table as a map -/

section Map

variable [DecidableEq κ] {path : κ → List ι} {key : α → κ} {t : ι → Option α} {k : κ} {p : α → Bool}

variable (ht : Exact path key t)
include ht

/-- Under `Exact`, the lookup of `k` returns `a` exactly when `a` is stored and has key `k`. -/
lemma find_eq_some_iff {a : α} :
    find t (fun a => key a == k) (path k) = some a ↔ ∃ i, t i = some a ∧ key a = k := by
  constructor
  · intro h
    obtain ⟨i, -, ha, hk⟩ := exists_of_find_eq_some h
    exact ⟨i, ha, by simpa using hk⟩
  · rintro ⟨i, ha, rfl⟩
    obtain ⟨b, hb⟩ :=
      find_isSome_of_mem (p := fun b => key b == key a) (ht.onPath ha) ha (by simp)
    obtain ⟨j, -, hj, hk⟩ := exists_of_find_eq_some hb
    have hk : key b = key a := by simpa using hk
    obtain rfl : i = j := ht.unique ha hj hk.symm
    rw [hb, ← hj, ha]

/-- Two lookups agree when they agree on which entries are stored for the key. -/
lemma find_congr {t' : ι → Option α} (ht' : Exact path key t')
    (h : ∀ a, key a = k → ((∃ i, t' i = some a) ↔ ∃ i, t i = some a)) :
    find t' (fun a => key a == k) (path k) = find t (fun a => key a == k) (path k) := by
  refine ext fun a => ?_
  rw [find_eq_some_iff ht', find_eq_some_iff ht]
  constructor
  · rintro ⟨i, ha, hk⟩
    exact (((h a hk).1 ⟨i, ha⟩).imp fun _ hi => ⟨hi, hk⟩)
  · rintro ⟨i, ha, hk⟩
    exact (((h a hk).2 ⟨i, ha⟩).imp fun _ hi => ⟨hi, hk⟩)

/-- After a store that keeps the table exact, the stored key has the new entry and every other
key what it had. -/
lemma find_update_some [DecidableEq ι] {i : ι} {a : α}
    (hi : i ∈ path (key a)) (hslot : ∀ b, t i = some b → key b = key a)
    (hfree : ∀ j b, t j = some b → key b = key a → j = i) (k : κ) :
    find (Function.update t i (some a)) (fun a => key a == k) (path k) =
      if k = key a then some a else find t (fun a => key a == k) (path k) := by
  have ht' := ht.update_some hi hfree
  split
  · next hk =>
    subst hk
    exact (find_eq_some_iff ht').2 ⟨i, by simp, rfl⟩
  next hk =>
  refine find_congr ht ht' fun b hb => ⟨?_, ?_⟩
  · rintro ⟨j, hj⟩
    by_cases hji : j = i
    · subst hji
      obtain rfl : a = b := by simpa using hj
      exact absurd hb.symm hk
    · exact ⟨j, by simpa [hji] using hj⟩
  · rintro ⟨j, hj⟩
    refine ⟨j, ?_⟩
    have hji : j ≠ i := by
      rintro rfl
      exact hk (hb ▸ hslot b hj)
    simpa [hji] using hj

/-- Deleting the entry of key `k` that satisfies `p` removes it from the lookups of `k` and
changes no other lookup. -/
lemma find_eraseFirst [DecidableEq ι] (hp : ∀ a, p a = true → key a = k) (k' : κ) :
    find (ProbeTable.eraseFirst t p (path k)) (fun a => key a == k') (path k') =
      (find t (fun a => key a == k') (path k')).filter fun a => !p a := by
  refine ext fun a => ?_
  rw [find_eq_some_iff (ht.eraseFirst p (path k)), filter_eq_some_iff, find_eq_some_iff ht]
  constructor
  · rintro ⟨i, ha, hk⟩
    obtain ⟨ha, hne⟩ := eraseFirst_eq_some.1 ha
    refine ⟨⟨i, ha, hk⟩, ?_⟩
    -- An entry that satisfies `p` would have been the one deleted: it is stored only once.
    by_contra hpa
    have hpa : p a = true := by simpa using hpa
    have hi : i ∈ path k := hp a hpa ▸ ht.onPath ha
    cases hh : holder t p (path k) with
    | none =>
      have := List.find?_eq_none.1 hh i hi
      simp [ha, hpa] at this
    | some j =>
      obtain ⟨-, b, hb, hpb⟩ := holder_eq_some hh
      have hij : i = j := ht.unique ha hb ((hp a hpa).trans (hp b hpb).symm)
      exact hne (by rw [hh, hij])
  · rintro ⟨⟨i, ha, hk⟩, hpa⟩
    refine ⟨i, eraseFirst_eq_some.2 ⟨ha, fun hh => ?_⟩, hk⟩
    obtain ⟨-, b, hb, hpb⟩ := holder_eq_some hh
    obtain rfl : a = b := by simpa [ha] using hb
    simp [hpb] at hpa

/-- Deleting every entry that satisfies `p` removes exactly those from the lookups. -/
lemma find_eraseWhere (p : α → Bool) (k : κ) :
    find (ProbeTable.eraseWhere t p) (fun a => key a == k) (path k) =
      (find t (fun a => key a == k) (path k)).filter fun a => !p a := by
  refine ext fun a => ?_
  rw [find_eq_some_iff (ht.eraseWhere p), filter_eq_some_iff, find_eq_some_iff ht]
  simp only [eraseWhere_eq_some, Bool.not_eq_true']
  constructor
  · rintro ⟨i, ⟨ha, hp⟩, hk⟩
    exact ⟨⟨i, ha, hk⟩, hp⟩
  · rintro ⟨⟨i, ha, hk⟩, hp⟩
    exact ⟨i, ⟨ha, hp⟩, hk⟩

end Map

end ProbeTable
