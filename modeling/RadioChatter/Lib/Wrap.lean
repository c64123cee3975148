import Mathlib.Algebra.Group.Nat.Defs
import Mathlib.Algebra.Group.Int.Defs
import Mathlib.Data.Int.Basic

/-!
The conversion of a wider or an unsigned integer to `int`: two's complement
with 32 bits.
-/

namespace CInt

/-- A value modulo `2 ^ 32`, read with a sign. -/
def wrap (n : ℤ) : ℤ := n.bmod (2 ^ 32)

theorem wrap_bounds (n : ℤ) : -2 ^ 31 ≤ wrap n ∧ wrap n < 2 ^ 31 := by
  rw [wrap, Int.bmod_def]
  omega

theorem wrap_of_lt {n : ℤ} (hlo : -2 ^ 31 ≤ n) (hhi : n < 2 ^ 31) : wrap n = n := by
  rw [wrap, Int.bmod_def]
  omega

/-- The upper half of the unsigned values is negative. -/
theorem wrap_of_le {n : ℤ} (hlo : 2 ^ 31 ≤ n) (hhi : n < 2 ^ 32) : wrap n = n - 2 ^ 32 := by
  rw [wrap, Int.bmod_def]
  omega

end CInt
