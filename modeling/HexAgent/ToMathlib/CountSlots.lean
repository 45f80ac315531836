import Mathlib.Data.List.Basic

/-!
# Counting the slots of a table

Lists are used as tables of slots, with `List.countP` for the number of slots in a given condition.
The lemmas say how such a number changes when one slot is replaced, and compare the numbers of two
tables slot by slot.
-/

namespace List

variable {α : Type*} {p : α → Bool} {l l' : List α} {i : ℕ} {a b : α}

/-- The slots after one of them was replaced. -/
lemma eq_or_getElem?_of_set {j : ℕ} (h : (l.set i a)[j]? = some b) :
    (j = i ∧ b = a) ∨ (j ≠ i ∧ l[j]? = some b) := by
  rw [getElem?_set] at h
  split at h
  · next heq =>
    obtain ⟨-, hb⟩ := Option.ite_none_right_eq_some.1 h
    exact .inl ⟨heq.symm, (Option.some.inj hb).symm⟩
  · next hne => exact .inr ⟨Ne.symm hne, h⟩

/-- Replacing one slot moves the count by the difference of the two entries. -/
lemma countP_set_add (h : l[i]? = some a) :
    (l.set i b).countP p + (if p a then 1 else 0) = l.countP p + (if p b then 1 else 0) := by
  obtain ⟨hi, rfl⟩ := getElem?_eq_some_iff.1 h
  rw [countP_set hi]
  split
  · next ha =>
    have hpos : 0 < l.countP p := countP_pos_iff.2 ⟨l[i], getElem_mem hi, ha⟩
    omega
  · omega

/-- Replacing one slot by an entry with the same answer keeps the count. -/
lemma countP_set_of_eq (h : l[i]? = some a) (hp : p b = p a) :
    (l.set i b).countP p = l.countP p := by
  have hadd := countP_set_add (b := b) (p := p) h
  rw [hp] at hadd
  omega

/-- If at most one slot is counted, two counted slots are the same. -/
lemma index_eq_of_countP_le_one {j : ℕ} (hone : l.countP p ≤ 1) (hi : l[i]? = some a)
    (hj : l[j]? = some b) (ha : p a = true) (hb : p b = true) : i = j := by
  induction l generalizing i j with
  | nil => cases hi
  | cons c l ih =>
    -- A counted slot in the tail leaves no room for a counted head.
    have hhead {k : ℕ} {d : α} (hd : l[k]? = some d) (hpd : p d = true) : ¬ p c = true := by
      intro hc
      have hpos : 0 < l.countP p := countP_pos_iff.2 ⟨d, mem_of_getElem? hd, hpd⟩
      rw [countP_cons, if_pos hc] at hone
      omega
    cases i with
    | zero =>
      cases j with
      | zero => rfl
      | succ j =>
        cases hi
        exact absurd ha (hhead hj hb)
    | succ i =>
      cases j with
      | zero =>
        cases hj
        exact absurd hb (hhead hi ha)
      | succ j =>
        have htail : l.countP p ≤ 1 := by
          rw [countP_cons] at hone
          omega
        rw [ih htail hi hj]

/-- If every counted slot was counted before, there are no more of them. -/
lemma countP_le_of_getElem? (h : ∀ (i : ℕ) b, l'[i]? = some b → p b = true →
    ∃ a, l[i]? = some a ∧ p a = true) : l'.countP p ≤ l.countP p := by
  induction l' generalizing l with
  | nil => exact Nat.zero_le _
  | cons b l' ih =>
    cases l with
    | nil =>
      refine Nat.le_of_eq (countP_eq_zero.2 fun c hc hpc => ?_)
      obtain ⟨i, hi⟩ := getElem?_of_mem hc
      obtain ⟨a, ha, -⟩ := h i c hi hpc
      cases ha
    | cons a l =>
      have htail : l'.countP p ≤ l.countP p := ih fun i c hc => h (i + 1) c hc
      have hhead : p b = true → p a = true := by
        intro hb
        obtain ⟨a', ha', hpa⟩ := h 0 b rfl hb
        cases ha'
        exact hpa
      rw [countP_cons, countP_cons]
      split
      · next hb =>
        rw [if_pos (hhead hb)]
        omega
      · omega

end List
