import Mathlib.Algebra.BigOperators.Ring.List
import Mathlib.Algebra.Order.BigOperators.Group.List
import Mathlib.Algebra.Order.Field.Basic
import Mathlib.Tactic.FieldSimp
import Mathlib.Tactic.Linarith

/-!
# Shares and budgets

`proRata dust total amount held` is the share of a holder of `held` when `amount` is taken from
holders of `total` together: proportional, never more than is held, and nothing from a holder of at
most `dust`. `fund` spends a budget on a list of items in order and skips an item that the remaining
budget does not fund.

Two facts about them are used by programs. The shares add up to at most the amount
(`sum_proRata_le`), and to all of it when no holder is dust (`sum_proRata_eq`). An item that was
skipped is not funded by what is left in the end (`mem_fund_or_skip_remainder`), so that a second
pass over skipped items funds nothing (`fund_eq_nil`).
-/

section ProRata

variable {K : Type*} [Field K] [LinearOrder K] {dust total amount held : K}

/-- The share of a holder. -/
def proRata (dust total amount held : K) : K :=
  if held ≤ dust then 0 else min (held * amount / total) held

lemma proRata_le_held (hheld : 0 ≤ held) : proRata dust total amount held ≤ held := by
  unfold proRata
  split
  · exact hheld
  · exact min_le_right _ _

lemma proRata_le (hnn : 0 ≤ held * amount / total) :
    proRata dust total amount held ≤ held * amount / total := by
  unfold proRata
  split
  · exact hnn
  · exact min_le_left _ _

variable [IsStrictOrderedRing K]

lemma proRata_nonneg (htot : 0 ≤ total) (hamt : 0 ≤ amount) (hheld : 0 ≤ held) :
    0 ≤ proRata dust total amount held := by
  unfold proRata
  split
  · exact le_rfl
  · exact le_min (div_nonneg (mul_nonneg hheld hamt) htot) hheld

/-- The cap is not reached when no more is taken than there is. -/
lemma proRata_eq (htot : 0 < total) (hamt : amount ≤ total) (hheld : 0 ≤ held)
    (hdust : held ≤ dust → held = 0) : proRata dust total amount held = held * amount / total := by
  unfold proRata
  split
  · next h => rw [hdust h, zero_mul, zero_div]
  · refine min_eq_left ?_
    rw [div_le_iff₀ htot]
    exact mul_le_mul_of_nonneg_left hamt hheld

section Sum

variable {ι : Type*} {rows : List ι} {holding : ι → K}

omit [LinearOrder K] [IsStrictOrderedRing K] in
lemma sum_map_mul_div (htotal : total ≠ 0) (hsum : (rows.map holding).sum = total) :
    (rows.map fun i => holding i * amount / total).sum = amount := by
  have hfactor : (fun i => holding i * amount / total) = fun i => holding i * (amount / total) :=
    funext fun i => mul_div_assoc _ _ _
  rw [hfactor, List.sum_map_mul_right, hsum]
  field_simp

/-- The shares of all holders add up to at most the amount. -/
lemma sum_proRata_le (htot : 0 < total) (hsum : (rows.map holding).sum = total)
    (hamt : 0 ≤ amount) (hnn : ∀ i ∈ rows, 0 ≤ holding i) :
    (rows.map fun i => proRata dust total amount (holding i)).sum ≤ amount :=
  calc (rows.map fun i => proRata dust total amount (holding i)).sum
      ≤ (rows.map fun i => holding i * amount / total).sum :=
        List.sum_le_sum fun i hi =>
          proRata_le (div_nonneg (mul_nonneg (hnn i hi) hamt) htot.le)
    _ = amount := sum_map_mul_div htot.ne' hsum

/-- The shares exhaust the amount when every holder counts. -/
lemma sum_proRata_eq (htot : 0 < total) (hsum : (rows.map holding).sum = total)
    (hamt : amount ≤ total) (hnn : ∀ i ∈ rows, 0 ≤ holding i)
    (hdust : ∀ i ∈ rows, holding i ≤ dust → holding i = 0) :
    (rows.map fun i => proRata dust total amount (holding i)).sum = amount := by
  refine Eq.trans (congrArg List.sum (List.map_congr_left fun i hi => ?_))
    (sum_map_mul_div htot.ne' hsum)
  exact proRata_eq htot hamt (hnn i hi) (hdust i hi)

end Sum

end ProRata

section Fund

variable {K : Type*} [AddCommGroup K] [LinearOrder K] {ι : Type*}
  {skip : K → ι → Bool} {cost : ι → K} {budget : K} {items : List ι} {i : ι}

/-- The items that a budget funds, in order. -/
def fund (skip : K → ι → Bool) (cost : ι → K) : K → List ι → List ι
  | _, [] => []
  | budget, i :: items =>
    if skip budget i then fund skip cost budget items
    else i :: fund skip cost (max (budget - cost i) 0) items

/-- What is left of a budget. -/
def remainder (cost : ι → K) (budget : K) (funded : List ι) : K :=
  max (budget - (funded.map cost).sum) 0

lemma mem_of_mem_fund (h : i ∈ fund skip cost budget items) : i ∈ items := by
  induction items generalizing budget with
  | nil => exact h
  | cons j items ih =>
    unfold fund at h
    split at h
    · exact .tail _ (ih h)
    · rcases List.mem_cons.1 h with rfl | h
      · exact .head _
      · exact .tail _ (ih h)

lemma fund_sublist (skip : K → ι → Bool) (cost : ι → K) (budget : K) (items : List ι) :
    (fund skip cost budget items).Sublist items := by
  induction items generalizing budget with
  | nil => exact .slnil
  | cons j items ih =>
    unfold fund
    split
    · exact (ih budget).cons _
    · exact (ih _).cons_cons _

lemma fund_eq_nil (h : ∀ j ∈ items, skip budget j = true) : fund skip cost budget items = [] := by
  induction items with
  | nil => rfl
  | cons j items ih =>
    obtain ⟨hj, hitems⟩ := List.forall_mem_cons.1 h
    rw [fund, if_pos hj, ih hitems]

variable [IsOrderedAddMonoid K]

lemma remainder_cons (hcost : ∀ j ∈ items, 0 ≤ cost j) :
    remainder cost (max (budget - cost i) 0) items = remainder cost budget (i :: items) := by
  have hsum : 0 ≤ (items.map cost).sum := by
    refine List.sum_nonneg fun x hx => ?_
    obtain ⟨j, hj, rfl⟩ := List.mem_map.1 hx
    exact hcost j hj
  unfold remainder
  rw [List.map_cons, List.sum_cons, ← sub_sub]
  rcases le_total 0 (budget - cost i) with h | h
  · rw [max_eq_left h]
  · rw [max_eq_right h, max_eq_right, max_eq_right]
    · exact (sub_le_self _ hsum).trans h
    · exact sub_le_self _ hsum

lemma remainder_le (hbudget : 0 ≤ budget) (hcost : ∀ j ∈ items, 0 ≤ cost j) :
    remainder cost budget items ≤ budget := by
  refine max_le (sub_le_self _ (List.sum_nonneg fun x hx => ?_)) hbudget
  obtain ⟨j, hj, rfl⟩ := List.mem_map.1 hx
  exact hcost j hj

/-- A smaller budget does not fund what a larger one skips, so every item is funded or skipped at
the remainder. -/
lemma mem_fund_or_skip_remainder
    (hmono : ∀ {b b' : K} {j : ι}, b' ≤ b → skip b j = true → skip b' j = true)
    (hbudget : 0 ≤ budget) (hcost : ∀ j ∈ items, 0 ≤ cost j) (hi : i ∈ items) :
    i ∈ fund skip cost budget items ∨
      skip (remainder cost budget (fund skip cost budget items)) i = true := by
  induction items generalizing budget with
  | nil => cases hi
  | cons j items ih =>
    obtain ⟨hj, hitems⟩ := List.forall_mem_cons.1 hcost
    unfold fund
    split
    · next hskip =>
      rcases List.mem_cons.1 hi with rfl | hi
      · exact .inr (hmono (remainder_le hbudget fun k hk => hitems k (mem_of_mem_fund hk)) hskip)
      · exact ih hbudget hitems hi
    · rw [← remainder_cons fun k hk => hitems k (mem_of_mem_fund hk)]
      rcases List.mem_cons.1 hi with rfl | hi
      · exact .inl (.head _)
      · exact (ih (le_max_right _ _) hitems hi).imp_left (List.mem_cons_of_mem _)

end Fund
