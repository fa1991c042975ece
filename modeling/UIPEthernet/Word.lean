import Mathlib.Algebra.Order.BigOperators.Group.List
import Mathlib.Algebra.Order.Ring.Nat
import Mathlib.Data.List.Perm.Subperm
/-!
# Machine words

The 8- and 16-bit arithmetic of the controller code on natural numbers. Every
operation reduces its result as the C types do; the lemmas give the exact
value whenever nothing wraps.
-/

namespace UIPEthernet

abbrev Byte := BitVec 8

/-- `a + b` in a `uint16_t`. -/
def add16 (a b : Nat) : Nat := (a + b) % 65536

/-- `a - b` in a `uint16_t`. -/
def sub16 (a b : Nat) : Nat := (a + 65536 - b % 65536) % 65536

theorem add16_eq (h : a + b < 65536) : add16 a b = a + b := Nat.mod_eq_of_lt h

theorem sub16_eq (h : b ≤ a) (ha : a < 65536) : sub16 a b = a - b := by
  unfold sub16; omega

theorem add16_lt (a b : Nat) : add16 a b < 65536 := Nat.mod_lt _ (by decide)

/-- `x & mask` used as a condition. -/
def has (x mask : BitVec n) : Bool := x &&& mask != 0

end UIPEthernet
