import Mathlib.Data.List.Basic
import Mathlib.Algebra.Order.Group.Nat

/-!
# One's-complement sums

A running 16-bit sum with the carry added at its low end keeps the total
modulo 65535, with 65535 in place of 0 as soon as something was added.
-/

namespace UIPEthernet.Lib

/-- The running sum of the total `n`. -/
def fold16 (n : Nat) : Nat := if n = 0 then 0 else (n - 1) % 65535 + 1

theorem fold16_of_lt (h : n < 65536) : fold16 n = n := by
  unfold fold16
  split <;> omega

theorem fold16_le (n : Nat) : fold16 n ≤ 65535 := by
  unfold fold16
  split <;> omega

theorem fold16_mod (n : Nat) : fold16 n % 65535 = n % 65535 := by
  unfold fold16
  split <;> omega

theorem fold16_eq_zero : fold16 n = 0 ↔ n = 0 := by
  unfold fold16
  split <;> omega

/-- Only the total counts, not how it was reached. -/
theorem fold16_congr (hmod : a % 65535 = b % 65535) (hzero : a = 0 ↔ b = 0) : fold16 a = fold16 b := by
  unfold fold16
  split <;> split <;> omega

theorem fold16_add (a b : Nat) : fold16 (fold16 a + b) = fold16 (a + b) := by
  have hmod := fold16_mod a
  have hzero := fold16_eq_zero (n := a)
  exact fold16_congr (by omega) (by omega)

/-- One addition of the loop, with its carry. -/
theorem carry_eq (ha : a < 65536) (hb : b < 65536) :
    (if (a + b) % 65536 < b then ((a + b) % 65536 + 1) % 65536 else (a + b) % 65536) = fold16 (a + b) := by
  unfold fold16
  split <;> split <;> omega

/-- With the complement of its sum a total has all bits set. -/
theorem fold16_complement (h : n ≠ 0) : fold16 (n + (65535 - fold16 n)) = 65535 := by
  have hmod := fold16_mod n
  have hle := fold16_le n
  rw [fold16_congr (b := 65535) (by omega) (by omega)]
  exact fold16_of_lt (by omega)

-- ---------------------------------------------------------------------------
-- Words of a list of bytes
-- ---------------------------------------------------------------------------

/-- The sum of the bytes as words in network byte order, a last byte alone
being the high one. -/
def wordSum : List (BitVec 8) → Nat
  | [] => 0
  | [x] => 256 * x.toNat
  | x :: y :: l => 256 * x.toNat + y.toNat + wordSum l

theorem wordSum_append (k : Nat) {l : List (BitVec 8)} (hl : l.length = 2 * k) (m : List (BitVec 8)) :
    wordSum (l ++ m) = wordSum l + wordSum m := by
  induction k generalizing l with
  | zero =>
    obtain rfl := List.length_eq_zero_iff.mp hl
    simp [wordSum]
  | succ k ih =>
    match l, hl with
    | x :: y :: l, hl =>
      have htail := ih (l := l) (by simp at hl; omega)
      simp only [List.cons_append, wordSum, htail]
      omega

-- ---------------------------------------------------------------------------
-- The sum of RFC 1071
-- ---------------------------------------------------------------------------

/-- The bytes as 16-bit words in network byte order, an odd last byte padded by
zero. -/
def words : List (BitVec 8) → List Nat
  | [] => []
  | [x] => [256 * x.toNat]
  | x :: y :: l => (256 * x.toNat + y.toNat) :: words l

/-- Addition with an end-around carry. -/
def onesAdd (a b : Nat) : Nat := (a + b) % 65536 + (a + b) / 65536

def onesSum (l : List Nat) : Nat := l.foldl onesAdd 0

theorem onesAdd_eq (ha : a < 65536) (hb : b < 65536) : onesAdd a b = fold16 (a + b) := by
  unfold onesAdd fold16
  split <;> omega

/-- The sum of RFC 1071 is the running sum of the total. -/
theorem onesSum_words (l : List (BitVec 8)) : onesSum (words l) = fold16 (wordSum l) := by
  have hfold : ∀ a, (words l).foldl onesAdd (fold16 a) = fold16 (a + wordSum l) := by
    induction l using words.induct with
    | case1 => exact fun a => rfl
    | case2 x =>
      intro a
      have hx := x.isLt
      rw [words, List.foldl_cons, List.foldl_nil, onesAdd_eq (Nat.lt_succ_of_le (fold16_le a)) (by omega), fold16_add, wordSum]
    | case3 x y l ih =>
      intro a
      have hx := x.isLt
      have hy := y.isLt
      rw [words, List.foldl_cons, onesAdd_eq (Nat.lt_succ_of_le (fold16_le a)) (by omega), fold16_add, ih, wordSum, Nat.add_assoc]
  exact (hfold 0).trans (by rw [Nat.zero_add])

end UIPEthernet.Lib
