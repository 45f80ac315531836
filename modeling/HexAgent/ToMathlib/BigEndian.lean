import Mathlib.Algebra.Order.Ring.Nat
import Mathlib.Tactic.Ring

/-!
# Big-endian numbers

Byte lists as numbers, most significant byte first. Byte lists of one length compare
lexicographically as their numbers do (`lexLe_iff`), and every number that fits is the value of its
bytes (`value_bytes`).
-/

namespace BigEndian

/-- The number that a byte list stands for. -/
def value : List UInt8 → ℕ
  | [] => 0
  | b :: rest => b.toNat * 256 ^ rest.length + value rest

/-- The bytes of a number, in a given length. -/
def bytes : ℕ → ℕ → List UInt8
  | 0, _ => []
  | k + 1, n => UInt8.ofNat (n / 256 ^ k) :: bytes k (n % 256 ^ k)

/-- Lexicographic order. -/
def lexLe : List UInt8 → List UInt8 → Bool
  | [], _ => true
  | _ :: _, [] => false
  | a :: as, b :: bs => decide (a < b) || (decide (a = b) && lexLe as bs)

lemma value_lt (l : List UInt8) : value l < 256 ^ l.length := by
  induction l with
  | nil => exact Nat.one_pos
  | cons b rest ih =>
    have hb : b.toNat + 1 ≤ 256 := b.toNat_lt
    calc value (b :: rest) < b.toNat * 256 ^ rest.length + 256 ^ rest.length :=
          Nat.add_lt_add_left ih _
      _ = (b.toNat + 1) * 256 ^ rest.length := by ring
      _ ≤ 256 * 256 ^ rest.length := Nat.mul_le_mul_right _ hb
      _ = 256 ^ (b :: rest).length := by rw [List.length_cons]; ring

@[simp] lemma length_bytes (k n : ℕ) : (bytes k n).length = k := by
  induction k generalizing n with
  | zero => rfl
  | succ k ih => rw [bytes, List.length_cons, ih]

lemma value_bytes {k n : ℕ} (h : n < 256 ^ k) : value (bytes k n) = n := by
  induction k generalizing n with
  | zero =>
    have hzero : n = 0 := by simpa using h
    rw [hzero]
    rfl
  | succ k ih =>
    have hpos : 0 < 256 ^ k := Nat.pow_pos (by decide)
    have hbyte : n / 256 ^ k < 256 := by
      rw [Nat.div_lt_iff_lt_mul hpos]
      calc n < 256 ^ (k + 1) := h
        _ = 256 * 256 ^ k := by ring
    rw [bytes, value, length_bytes, ih (Nat.mod_lt _ hpos), UInt8.toNat_ofNat_of_lt' hbyte]
    exact Nat.div_add_mod' n (256 ^ k)

/-- Byte lists of one length are in lexicographic order exactly if their numbers are. -/
lemma lexLe_iff {a b : List UInt8} (h : a.length = b.length) :
    lexLe a b = true ↔ value a ≤ value b := by
  induction a generalizing b with
  | nil => simp [lexLe, value]
  | cons x xs ih =>
    cases b with
    | nil => cases h
    | cons y ys =>
      have hlen : xs.length = ys.length := Nat.succ.inj h
      have hx := value_lt xs
      have hy := value_lt ys
      simp only [lexLe, value, Bool.or_eq_true, Bool.and_eq_true, decide_eq_true_eq, ih hlen,
        UInt8.lt_iff_toNat_lt, hlen]
      rw [hlen] at hx
      generalize hp : 256 ^ ys.length = p at hx hy ⊢
      -- A smaller first byte outweighs all that follows.
      have hstep {m k : ℕ} (hlt : m < k) : m * p + p ≤ k * p := by
        calc m * p + p = (m + 1) * p := by ring
          _ ≤ k * p := Nat.mul_le_mul_right p hlt
      constructor
      · rintro (hlt | ⟨rfl, hle⟩)
        · have := hstep hlt
          omega
        · omega
      · intro hle
        rcases Nat.lt_trichotomy x.toNat y.toNat with hlt | heq | hgt
        · exact .inl hlt
        · refine .inr ⟨UInt8.toNat_inj.1 heq, ?_⟩
          rw [heq] at hle
          omega
        · have := hstep hgt
          omega

end BigEndian
