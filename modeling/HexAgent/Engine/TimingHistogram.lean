import Mathlib.Algebra.Group.Nat.Defs
import Mathlib.Data.List.Induction
import Mathlib.Order.Bounds.Basic

/-!
# Timing histograms

A histogram of `virtual_owner` has 64 buckets for each power of two of nanoseconds. `upper_quantile`
adds up the buckets until the rank is reached, and returns the upper bound of that bucket or the
maximum.

A sample lies at or below the upper bound of a bucket exactly if its own bucket is not a later one
(`bucketIndex_le_iff`), so the bucket at which the sum reaches the rank is that of the order
statistic. The counters wrap at `2 ^ 64` samples.
-/

namespace List

variable {α : Type*} {r : α → α → Prop} {p : α → Bool} {l : List α}

/-- In a sorted list the elements with a downward closed property come first. -/
lemma lt_countP_iff_of_pairwise (hl : l.Pairwise r) (hp : ∀ a b, r a b → p b → p a) (k : ℕ) :
    k < l.countP p ↔ ∃ x, l[k]? = some x ∧ p x := by
  induction l generalizing k with
  | nil => simp
  | cons a l ih =>
    obtain ⟨ha, hl⟩ := pairwise_cons.1 hl
    by_cases hpa : p a
    · rw [countP_cons_of_pos hpa]
      cases k with
      | zero => simp [hpa]
      | succ k => rw [Nat.add_lt_add_iff_right, ih hl, getElem?_cons_succ]
    · have hnone x (hx : x ∈ a :: l) : ¬p x := by
        rcases mem_cons.1 hx with rfl | hx
        · exact hpa
        · exact fun h => hpa (hp a x (ha x hx) h)
      rw [countP_eq_zero.2 hnone]
      refine iff_of_false (Nat.not_lt_zero k) ?_
      rintro ⟨x, hx, hpx⟩
      exact hnone x (mem_of_getElem? hx) hpx

end List

namespace HexAgent.Engine

open List Function

structure TimingHistogram where
  buckets : ℕ → ℕ := fun _ => 0
  count : ℕ := 0
  maximumNs : ℕ := 0

namespace TimingHistogram

/-- The bucket that `record` counts a sample in. -/
def bucketIndex (ns : ℕ) : ℕ :=
  let exponent := (max ns 1).log2
  let base := 2 ^ exponent
  let fraction := (ns - base) * 64 / base
  exponent * 64 + min fraction 63

def record (h : TimingHistogram) (ns : ℕ) : TimingHistogram where
  buckets := update h.buckets (bucketIndex ns) ((h.buckets (bucketIndex ns) + 1) % 2 ^ 64)
  count := (h.count + 1) % 2 ^ 64
  maximumNs := max h.maximumNs ns

/-- `div_ceil`. -/
def divCeil (a b : ℕ) : ℕ := (a + b - 1) / b

/-- The upper bound that `upper_quantile` takes for a bucket. -/
def bucketUpper (index : ℕ) : ℕ :=
  let base := 2 ^ (index / 64)
  min (base + divCeil (base * (index % 64 + 1)) 64 - 1) (2 ^ 64 - 1)

def upperQuantileFrom (h : TimingHistogram) (target : ℕ) : List ℕ → ℕ → ℕ
  | [], _ => h.maximumNs
  | index :: indices, cumulative =>
    let cumulative := (cumulative + h.buckets index) % 2 ^ 64
    if target ≤ cumulative then min (bucketUpper index) h.maximumNs
    else h.upperQuantileFrom target indices cumulative

def upperQuantile (h : TimingHistogram) (numerator denominator : ℕ) : ℕ :=
  if h.count = 0 ∨ h.maximumNs = 0 then 0
  else h.upperQuantileFrom (divCeil (h.count * numerator) denominator % 2 ^ 64) (range 4096) 0

/-- The histogram of some samples. -/
def ofSamples (samples : List ℕ) : TimingHistogram := samples.foldl record {}

/-! ## Buckets -/

/-- A sample is at most the upper bound of a bucket exactly if its own bucket is not a later one. -/
lemma bucketIndex_le_iff {ns i : ℕ} (hns : ns < 2 ^ 64) :
    bucketIndex ns ≤ i ↔ ns ≤ bucketUpper i := by
  have hlow := Nat.log2_self_le (show max ns 1 ≠ 0 by omega)
  have hhigh := Nat.lt_log2_self (n := max ns 1)
  unfold bucketIndex bucketUpper divCeil
  dsimp only
  generalize (max ns 1).log2 = e at *
  have hpos := Nat.two_pow_pos e
  have hfrac k : (ns - 2 ^ e) * 64 / 2 ^ e < k ↔ (ns - 2 ^ e) * 64 < k * 2 ^ e :=
    Nat.div_lt_iff_lt_mul hpos
  generalize (ns - 2 ^ e) * 64 / 2 ^ e = f at *
  have hf : f < 64 := (hfrac 64).2 (by omega)
  have hle : 2 ^ (i / 64) * (i % 64 + 1) ≤ 2 ^ (i / 64) * 64 :=
    Nat.mul_le_mul_left _ (Nat.mod_lt _ (by decide))
  have hmul : 0 < 2 ^ (i / 64) * (i % 64 + 1) := Nat.mul_pos (Nat.two_pow_pos _) (Nat.succ_pos _)
  have hk := hfrac (i % 64 + 1)
  rw [Nat.min_eq_left (Nat.le_of_lt_succ hf), Nat.le_min]
  generalize hm : i % 64 = m at *
  generalize hd : i / 64 = d at *
  rcases Nat.lt_trichotomy e d with he | rfl | he
  · have hbase := Nat.pow_le_pow_right (show 0 < 2 by decide) he
    omega
  · rw [Nat.mul_comm (m + 1)] at hk
    omega
  · have hbase := Nat.pow_le_pow_right (show 0 < 2 by decide) he
    omega

lemma bucketIndex_mono {a b : ℕ} (hb : b < 2 ^ 64) (h : a ≤ b) : bucketIndex a ≤ bucketIndex b :=
  (bucketIndex_le_iff (h.trans_lt hb)).2 (h.trans ((bucketIndex_le_iff hb).1 le_rfl))

/-- The upper bound of a bucket with a sample is the greatest value in it. -/
lemma isGreatest_bucketUpper {ns : ℕ} (hns : ns < 2 ^ 64) :
    IsGreatest {y | y < 2 ^ 64 ∧ bucketIndex y = bucketIndex ns}
      (bucketUpper (bucketIndex ns)) := by
  have hlt : bucketUpper (bucketIndex ns) < 2 ^ 64 :=
    (Nat.min_le_right _ _).trans_lt (by decide)
  refine ⟨⟨hlt, le_antisymm ((bucketIndex_le_iff hlt).2 le_rfl) ?_⟩, fun y hy => ?_⟩
  · exact bucketIndex_mono hlt ((bucketIndex_le_iff hns).1 le_rfl)
  · exact (bucketIndex_le_iff hy.1).1 hy.2.le

/-! ## Recorded samples -/

variable {samples : List ℕ}

lemma ofSamples_concat (s : ℕ) : ofSamples (samples ++ [s]) = (ofSamples samples).record s := by
  rw [ofSamples, foldl_append]
  rfl

lemma count_ofSamples : (ofSamples samples).count = samples.length % 2 ^ 64 := by
  induction samples using List.reverseRecOn with
  | nil => rfl
  | append_singleton samples s ih => simp [ofSamples_concat, record, ih]

lemma buckets_ofSamples (i : ℕ) :
    (ofSamples samples).buckets i = samples.countP (bucketIndex · = i) % 2 ^ 64 := by
  induction samples using List.reverseRecOn with
  | nil => rfl
  | append_singleton samples s ih =>
    rw [ofSamples_concat, countP_append, countP_singleton]
    by_cases hi : bucketIndex s = i
    · simp [record, hi, ih]
    · simp [record, hi, update_of_ne (Ne.symm hi), ih]

lemma isGreatest_maximumNs (hne : samples ≠ []) :
    IsGreatest {s | s ∈ samples} (ofSamples samples).maximumNs := by
  induction samples using List.reverseRecOn with
  | nil => exact absurd rfl hne
  | append_singleton samples s ih =>
    rw [ofSamples_concat]
    rcases eq_or_ne samples [] with rfl | hsamples
    · simp [record, ofSamples]
    · have hset : {x | x ∈ samples ++ [s]} = {x | x ∈ samples} ∪ {s} := by
        ext x
        simp [or_comm]
      rw [hset]
      exact (ih hsamples).union isGreatest_singleton

/-- A further bucket is added to the sum. -/
lemma countP_bucketIndex_succ (i : ℕ) :
    samples.countP (bucketIndex · < i) + samples.countP (bucketIndex · = i) =
      samples.countP (bucketIndex · < i + 1) := by
  induction samples with
  | nil => rfl
  | cons s samples ih =>
    simp only [countP_cons, decide_eq_true_eq]
    split_ifs <;> omega

/-- The sum reaches the target at the first bucket up to which there are enough samples. -/
lemma upperQuantileFrom_eq {target j n i : ℕ} (hlen : samples.length < 2 ^ 64)
    (htarget : ∀ k, target ≤ samples.countP (bucketIndex · < k + 1) ↔ j ≤ k) (hi : i ≤ j)
    (hj : j < i + n) :
    (ofSamples samples).upperQuantileFrom target (range' i n) (samples.countP (bucketIndex · < i)) =
      min (bucketUpper j) (ofSamples samples).maximumNs := by
  induction n generalizing i with
  | zero => omega
  | succ n ih =>
    have hlt p : samples.countP p < 2 ^ 64 := countP_le_length.trans_lt hlen
    rw [range'_succ, upperQuantileFrom, buckets_ofSamples, Nat.mod_eq_of_lt (hlt _),
      countP_bucketIndex_succ, Nat.mod_eq_of_lt (hlt _)]
    split
    · next hreached => rw [le_antisymm ((htarget i).1 hreached) hi]
    · next hbelow =>
      rw [htarget] at hbelow
      exact ih (by omega) (by omega)

/-- The quantile is the largest sample or the upper bound of the bucket of the order statistic,
whichever is smaller. It is at least the order statistic. -/
theorem upperQuantile_conservative {numerator denominator : ℕ} (hne : samples ≠ [])
    (hlen : samples.length < 2 ^ 64) (hsamples : ∀ s ∈ samples, s < 2 ^ 64) (hnum : 0 < numerator)
    (hle : numerator ≤ denominator) :
    ∃ x largest upper,
      (samples.mergeSort (· ≤ ·))[divCeil (samples.length * numerator) denominator - 1]? = some x ∧
      IsGreatest {s | s ∈ samples} largest ∧
      IsGreatest {y | y < 2 ^ 64 ∧ bucketIndex y = bucketIndex x} upper ∧
      (ofSamples samples).upperQuantile numerator denominator = min largest upper ∧
      x ≤ min largest upper := by
  have hpos := length_pos_iff.2 hne
  have hden : 0 < denominator := hnum.trans_le hle
  have hrank : 0 < divCeil (samples.length * numerator) denominator :=
    Nat.div_pos (by have := Nat.mul_pos hpos hnum; omega) hden
  have hrank' : divCeil (samples.length * numerator) denominator ≤ samples.length := by
    refine Nat.lt_succ_iff.1 ((Nat.div_lt_iff_lt_mul hden).2 ?_)
    have := Nat.mul_le_mul_left samples.length hle
    rw [Nat.succ_mul]
    omega
  have hcount : (ofSamples samples).count = samples.length := by
    rw [count_ofSamples, Nat.mod_eq_of_lt hlen]
  have hmax := isGreatest_maximumNs hne
  unfold upperQuantile
  rw [hcount, Nat.mod_eq_of_lt (hrank'.trans_lt hlen)]
  generalize divCeil (samples.length * numerator) denominator = rank at *
  obtain ⟨x, hx⟩ : ∃ x, (samples.mergeSort (· ≤ ·))[rank - 1]? = some x := by
    refine ⟨_, getElem?_eq_getElem ?_⟩
    rw [length_mergeSort]
    omega
  have hmem : x ∈ samples := mem_mergeSort.1 (mem_of_getElem? hx)
  have hxlt := hsamples x hmem
  have hupper := isGreatest_bucketUpper hxlt
  refine ⟨x, _, _, hx, hmax, hupper, ?_, le_min (hmax.2 hmem) (hupper.2 ⟨hxlt, rfl⟩)⟩
  have hsorted : (samples.mergeSort (· ≤ ·)).Pairwise (bucketIndex · ≤ bucketIndex ·) :=
    (pairwise_mergeSort
      (fun _ _ _ h h' => decide_eq_true ((of_decide_eq_true h).trans (of_decide_eq_true h')))
      (fun a b => by simpa using Nat.le_total a b) samples).imp_of_mem fun _ hb h =>
        bucketIndex_mono (hsamples _ (mem_mergeSort.1 hb)) (of_decide_eq_true h)
  have htarget k : rank ≤ samples.countP (bucketIndex · < k + 1) ↔ bucketIndex x ≤ k := by
    rw [← (mergeSort_perm samples (· ≤ ·)).countP_eq, ← Nat.sub_add_cancel hrank, Nat.succ_le_iff,
      lt_countP_iff_of_pairwise hsorted fun a b h hb =>
        decide_eq_true (h.trans_lt (of_decide_eq_true hb)), hx]
    simp only [Option.some.injEq, exists_eq_left', decide_eq_true_eq, Nat.lt_succ_iff]
  split
  · next h => rw [h.resolve_left hpos.ne', Nat.zero_min]
  · rw [min_comm, range_eq_range', ← upperQuantileFrom_eq (n := 4096) hlen htarget (Nat.zero_le _)]
    · simp
    · have hlast := (bucketIndex_le_iff (i := 4095) hxlt).2 (Nat.le_of_lt_succ hxlt)
      omega

/-- The median of three samples. -/
theorem upperQuantile_conservative_median : ∃ x largest upper,
    ([1000, 10, 130].mergeSort (· ≤ ·))[divCeil (3 * 1) 2 - 1]? = some x ∧
    IsGreatest {s | s ∈ [1000, 10, 130]} largest ∧
    IsGreatest {y | y < 2 ^ 64 ∧ bucketIndex y = bucketIndex x} upper ∧
    (ofSamples [1000, 10, 130]).upperQuantile 1 2 = min largest upper ∧ x ≤ min largest upper :=
  upperQuantile_conservative (by decide) (by decide) (by decide) (by decide) (by decide)

/-- After `2 ^ 64` samples the count is zero again, and so is every quantile. -/
theorem upperQuantile_wraps : ∃ samples : List ℕ, samples ≠ [] ∧ (∀ s ∈ samples, s = 1) ∧
    (ofSamples samples).upperQuantile 1 1 = 0 := by
  obtain ⟨n, hn⟩ : ∃ n : ℕ, n + 1 = 2 ^ 64 := ⟨2 ^ 64 - 1, by omega⟩
  refine ⟨replicate (n + 1) 1, by simp, fun s => eq_of_mem_replicate, if_pos (.inl ?_)⟩
  rw [count_ofSamples, length_replicate, hn, Nat.mod_self]

end TimingHistogram

end HexAgent.Engine
