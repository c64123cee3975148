import Mathlib.Algebra.Order.Ring.Nat
import Mathlib.Tactic.Linarith

/-!
Rounding a natural number to a significand of `p` bits, to the nearest and
ties to even.
-/

namespace Significand

/-- The multiple of `u` that is nearest to `n`; of two of them the one with the
even quotient. -/
def roundTo (u n : ℕ) : ℕ :=
  if 2 * (n % u) < u ∨ 2 * (n % u) = u ∧ n / u % 2 = 0 then n / u * u else (n / u + 1) * u

/-- What the last of `p` significant bits of `n` is worth. -/
def unit (p n : ℕ) : ℕ := 2 ^ (n.log2 + 1 - p)

def round (p n : ℕ) : ℕ := roundTo (unit p n) n

theorem unit_pos (p n : ℕ) : 0 < unit p n := Nat.two_pow_pos _

section RoundTo

variable {u n m : ℕ}

theorem dvd_roundTo (u n : ℕ) : u ∣ roundTo u n := by
  unfold roundTo
  split
  · exact Nat.dvd_mul_left u _
  · exact Nat.dvd_mul_left u _

theorem roundTo_eq_self_iff (hu : 0 < u) : roundTo u n = n ↔ u ∣ n := by
  constructor
  · intro h
    rw [← h]
    exact dvd_roundTo u n
  · intro h
    have hmod : n % u = 0 := Nat.mod_eq_zero_of_dvd h
    rw [roundTo, hmod, if_pos (Or.inl hu), Nat.div_mul_cancel h]

theorem roundTo_mono (u : ℕ) (h : n ≤ m) : roundTo u n ≤ roundTo u m := by
  have hdiv : n / u ≤ m / u := Nat.div_le_div_right h
  obtain hlt | heq := Nat.lt_or_eq_of_le hdiv
  · calc roundTo u n ≤ (n / u + 1) * u := by
          unfold roundTo
          split
          · exact Nat.mul_le_mul_right u (Nat.le_succ _)
          · exact le_refl _
      _ ≤ m / u * u := Nat.mul_le_mul_right u hlt
      _ ≤ roundTo u m := by
          unfold roundTo
          split
          · exact le_refl _
          · exact Nat.mul_le_mul_right u (Nat.le_succ _)
  · -- With one quotient the remainders decide.
    have hmod : n % u ≤ m % u := by
      have hn := Nat.div_add_mod n u
      have hm := Nat.div_add_mod m u
      rw [heq] at hn
      omega
    unfold roundTo
    rw [heq]
    split
    · split
      · exact le_refl _
      · exact Nat.mul_le_mul_right u (Nat.le_succ _)
    · rw [if_neg (by omega)]

theorem roundTo_le (hu : 0 < u) (hm : u ∣ m) (h : n ≤ m) : roundTo u n ≤ m :=
  (roundTo_mono u h).trans_eq ((roundTo_eq_self_iff hu).mpr hm)

theorem le_roundTo (hu : 0 < u) (hm : u ∣ m) (h : m ≤ n) : m ≤ roundTo u n :=
  ((roundTo_eq_self_iff hu).mpr hm).symm.trans_le (roundTo_mono u h)

end RoundTo

variable {p n m : ℕ}

/-- The numbers of `p` significant bits are the ones that are kept. -/
theorem round_eq_self_iff (p n : ℕ) : round p n = n ↔ unit p n ∣ n :=
  roundTo_eq_self_iff (unit_pos p n)

theorem round_le_two_pow (p n : ℕ) : round p n ≤ 2 ^ (n.log2 + 1) := by
  apply roundTo_le (unit_pos p n) _ Nat.lt_log2_self.le
  exact Nat.pow_dvd_pow 2 (Nat.sub_le _ _)

theorem two_pow_le_round (hp : 0 < p) (hn : n ≠ 0) : 2 ^ n.log2 ≤ round p n := by
  apply le_roundTo (unit_pos p n) _ (Nat.log2_self_le hn)
  exact Nat.pow_dvd_pow 2 (by omega)

theorem round_pos (hp : 0 < p) (hn : n ≠ 0) : 0 < round p n :=
  (Nat.two_pow_pos _).trans_le (two_pow_le_round hp hn)

theorem log2_mono (h : n ≤ m) : n.log2 ≤ m.log2 := by
  by_cases hn : n = 0
  · simp [hn]
  · exact (Nat.le_log2 (by omega)).mpr ((Nat.log2_self_le hn).trans h)

/-- Rounding keeps the order, also across powers of two. -/
theorem round_mono (hp : 0 < p) (h : n ≤ m) : round p n ≤ round p m := by
  obtain hlt | heq := Nat.lt_or_eq_of_le (log2_mono h)
  · have hm : m ≠ 0 := by
      rintro rfl
      simp at hlt
    calc round p n ≤ 2 ^ (n.log2 + 1) := round_le_two_pow p n
      _ ≤ 2 ^ m.log2 := Nat.pow_le_pow_right (by omega) hlt
      _ ≤ round p m := two_pow_le_round hp hm
  · rw [round, round, unit, unit, heq]
    exact roundTo_mono _ h

end Significand
