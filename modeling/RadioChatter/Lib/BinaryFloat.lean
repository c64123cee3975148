import Mathlib.Algebra.Order.Field.Power
import Mathlib.Algebra.Order.Floor.Ring
import Mathlib.Algebra.Order.Floor.Semifield
import Mathlib.Data.Int.Log
import Mathlib.Tactic.Linarith
import Mathlib.Tactic.Positivity
import Mathlib.Tactic.Ring
import RadioChatter.Lib.Significand

/-!
Rounding to a binary floating-point format, to the nearest and ties to even.

A format has a number of significant bits and a least exponent, and no greatest
one: overflow is left to whoever uses it.
-/

namespace BinaryFloat

variable {K : Type*} [Field K] [LinearOrder K] [IsStrictOrderedRing K] [FloorRing K]

/-- The integer that is nearest to `x`; of two of them the even one. -/
def nearestEven (x : K) : ℤ :=
  if Int.fract x < 1 / 2 ∨ Int.fract x = 1 / 2 ∧ ⌊x⌋ % 2 = 0 then ⌊x⌋ else ⌊x⌋ + 1

section NearestEven

variable {x y : K}

omit [IsStrictOrderedRing K] in
theorem floor_le_nearestEven (x : K) : ⌊x⌋ ≤ nearestEven x := by
  unfold nearestEven
  split
  · exact le_refl _
  · exact (Int.lt_succ _).le

omit [IsStrictOrderedRing K] in
theorem nearestEven_le_floor_add_one (x : K) : nearestEven x ≤ ⌊x⌋ + 1 := by
  unfold nearestEven
  split
  · exact (Int.lt_succ _).le
  · exact le_refl _

@[simp] theorem nearestEven_intCast (n : ℤ) : nearestEven (n : K) = n := by
  have hhalf : (0 : K) < 1 / 2 := by positivity
  rw [nearestEven, Int.fract_intCast, if_pos (Or.inl hhalf), Int.floor_intCast]

theorem abs_nearestEven_sub_le (x : K) : |(nearestEven x : K) - x| ≤ 1 / 2 := by
  have hfract : x = ⌊x⌋ + Int.fract x := (Int.floor_add_fract x).symm
  have hnonneg := Int.fract_nonneg x
  have hlt := Int.fract_lt_one x
  rw [abs_le]
  unfold nearestEven
  split
  next h =>
    have hle : Int.fract x ≤ 1 / 2 := h.elim le_of_lt fun htie => htie.1.le
    constructor <;> linarith
  next h =>
    have hge : 1 / 2 ≤ Int.fract x := not_lt.mp fun hlt => h (Or.inl hlt)
    push_cast
    constructor <;> linarith

/-- The nearest integer is at less than a half, or it is the even one at a half. -/
theorem nearestEven_spec (x : K) :
    |x - nearestEven x| < 1 / 2 ∨ |x - nearestEven x| = 1 / 2 ∧ nearestEven x % 2 = 0 := by
  have hfract : x = ⌊x⌋ + Int.fract x := (Int.floor_add_fract x).symm
  have hnonneg := Int.fract_nonneg x
  have hlt := Int.fract_lt_one x
  unfold nearestEven
  split
  next h =>
    have habs : |x - ⌊x⌋| = Int.fract x := by
      rw [Int.self_sub_floor, abs_of_nonneg hnonneg]
    rw [habs]
    exact h
  next h =>
    obtain ⟨hge, hodd⟩ := not_or.mp h
    have habs : |x - (⌊x⌋ + 1 : ℤ)| = 1 - Int.fract x := by
      rw [abs_of_nonpos]
      · push_cast
        linarith
      · push_cast
        linarith
    rw [habs]
    obtain hgt | htie := (not_lt.mp hge).lt_or_eq
    · exact Or.inl (by linarith)
    · refine Or.inr ⟨by linarith, ?_⟩
      have hparity : ⌊x⌋ % 2 ≠ 0 := fun heven => hodd ⟨htie.symm, heven⟩
      omega

/-- No other integer is so. -/
theorem nearestEven_eq {n : ℤ} (h : |x - n| < 1 / 2 ∨ |x - n| = 1 / 2 ∧ n % 2 = 0) :
    nearestEven x = n := by
  have hdist : ∀ m : ℤ, |(m : K) - n| ≤ |x - m| + |x - n| := by
    intro m
    calc |(m : K) - n| = |(m - x) + (x - n)| := by rw [sub_add_sub_cancel]
      _ ≤ |m - x| + |x - n| := abs_add_le _ _
      _ = |x - m| + |x - n| := by rw [abs_sub_comm (m : K)]
  have hle : |(nearestEven x : K) - n| ≤ 1 := by
    have hsum := hdist (nearestEven x)
    obtain hx | ⟨hx, -⟩ := nearestEven_spec x <;> obtain hn | ⟨hn, -⟩ := h <;> linarith
  have hcast : |nearestEven x - n| ≤ 1 := by exact_mod_cast hle
  by_contra hne
  have hone : |nearestEven x - n| = 1 := by
    have hpos : 0 < |nearestEven x - n| := abs_pos.mpr (sub_ne_zero.mpr hne)
    omega
  have hsum : (1 : K) ≤ |x - nearestEven x| + |x - n| := by
    have hcastOne : |(nearestEven x : K) - n| = 1 := by exact_mod_cast hone
    rw [← hcastOne]
    exact hdist _
  -- Both are at a half, so both are even and one apart.
  obtain hx | ⟨hx, hxeven⟩ := nearestEven_spec x
  · obtain hn | ⟨hn, -⟩ := h <;> linarith
  · obtain hn | ⟨hn, heven⟩ := h
    · linarith
    · obtain heq | heq := abs_eq one_pos.le |>.mp hone <;> omega

@[simp] theorem nearestEven_neg (x : K) : nearestEven (-x) = -nearestEven x := by
  apply nearestEven_eq
  have habs : |-x - (-nearestEven x : ℤ)| = |x - nearestEven x| := by
    rw [← abs_neg]
    push_cast
    congr 1
    ring
  rw [habs]
  obtain hlt | ⟨htie, heven⟩ := nearestEven_spec x
  · exact Or.inl hlt
  · exact Or.inr ⟨htie, by omega⟩

theorem nearestEven_mono (h : x ≤ y) : nearestEven x ≤ nearestEven y := by
  obtain hlt | heq := (Int.floor_le_floor h).lt_or_eq
  · exact (nearestEven_le_floor_add_one x).trans (hlt.trans_le (floor_le_nearestEven y))
  · -- With one integral part the fractional parts decide.
    have hfract : Int.fract x ≤ Int.fract y := by
      rw [Int.fract, Int.fract, heq]
      exact sub_le_sub_right h _
    unfold nearestEven
    rw [heq]
    split
    · split
      · exact le_refl _
      · exact (Int.lt_succ _).le
    next hx =>
      have hy : ¬(Int.fract y < 1 / 2 ∨ Int.fract y = 1 / 2 ∧ ⌊y⌋ % 2 = 0) := by
        rintro (hlt | ⟨htie, heven⟩)
        · exact hx (Or.inl (hfract.trans_lt hlt))
        · obtain hlt | hhalf := (hfract.trans_eq htie).lt_or_eq
          · exact hx (Or.inl hlt)
          · exact hx (Or.inr ⟨hhalf, heven⟩)
      rw [if_neg hy]

theorem nearestEven_le {n : ℤ} (h : x ≤ n) : nearestEven x ≤ n :=
  (nearestEven_mono h).trans_eq (nearestEven_intCast n)

theorem le_nearestEven {n : ℤ} (h : n ≤ x) : n ≤ nearestEven x :=
  (nearestEven_intCast n).symm.trans_le (nearestEven_mono h)

/-- For a quotient of natural numbers it is decided by the remainder. -/
theorem nearestEven_div_mul (n : ℕ) {u : ℕ} (hu : 0 < u) :
    (nearestEven ((n : K) / u) : K) * u = Significand.roundTo u n := by
  have hpos : (0 : K) < u := Nat.cast_pos.mpr hu
  have hfloor : ⌊(n : K) / u⌋ = (n / u : ℕ) := by
    rw [← Nat.floor_div_eq_div (K := K) n u, Int.natCast_floor_eq_floor (by positivity)]
  have hsplit : (n : K) = u * (n / u : ℕ) + (n % u : ℕ) := by
    exact_mod_cast (Nat.div_add_mod n u).symm
  have hfract : Int.fract ((n : K) / u) = (n % u : ℕ) / u := by
    rw [Int.fract, hfloor, Int.cast_natCast, eq_div_iff hpos.ne', sub_mul,
      div_mul_cancel₀ _ hpos.ne']
    linarith
  have hlt : Int.fract ((n : K) / u) < 1 / 2 ↔ 2 * (n % u) < u := by
    rw [hfract, div_lt_div_iff₀ hpos two_pos, one_mul, mul_comm]
    exact_mod_cast Iff.rfl
  have heq : Int.fract ((n : K) / u) = 1 / 2 ↔ 2 * (n % u) = u := by
    rw [hfract, div_eq_div_iff hpos.ne' two_ne_zero, one_mul, mul_comm]
    exact_mod_cast Iff.rfl
  have hparity : ((n / u : ℕ) : ℤ) % 2 = 0 ↔ n / u % 2 = 0 := by
    omega
  simp only [nearestEven, hlt, heq, hfloor, hparity, Significand.roundTo]
  split
  · rw [Int.cast_natCast, Nat.cast_mul]
  · rw [Int.cast_add, Int.cast_natCast, Int.cast_one, Nat.cast_mul, Nat.cast_add, Nat.cast_one]

end NearestEven

/-! ### Formats -/

structure Format where
  precision : ℕ
  minExponent : ℤ
  precision_pos : 0 < precision

namespace Format

variable (F : Format) {x y : K}

/-- The exponent of the last bit. -/
def exponent (x : K) : ℤ := max (Int.log 2 |x| + 1 - F.precision) F.minExponent

/-- What the last bit is worth. -/
def unit (x : K) : K := 2 ^ F.exponent x

def round (x : K) : K := nearestEven (x / F.unit x) * F.unit x

/-- What the format can hold. -/
def Holds (x : K) : Prop :=
  ∃ m e : ℤ, |m| < 2 ^ F.precision ∧ F.minExponent ≤ e ∧ x = m * 2 ^ e

/-- The numbers that are not too small for all of the bits. -/
def Normal (x : K) : Prop := (2 : K) ^ (F.minExponent + F.precision - 1) ≤ |x|

theorem unit_pos (x : K) : 0 < F.unit x := by
  unfold unit
  positivity

theorem exponent_mono (hx : x ≠ 0) (h : |x| ≤ |y|) : F.exponent x ≤ F.exponent y := by
  have hlog : Int.log 2 |x| ≤ Int.log 2 |y| := Int.log_mono_right (abs_pos.mpr hx) h
  unfold exponent
  omega

/-- A number is smaller than its bits allow. -/
theorem abs_lt_unit_mul (x : K) : |x| < F.unit x * 2 ^ F.precision := by
  have hlog : |x| < ((2 : ℕ) : K) ^ (Int.log 2 |x| + 1) := Int.lt_zpow_succ_log_self one_lt_two _
  have hexponent : Int.log 2 |x| + 1 ≤ F.exponent x + F.precision := by
    unfold exponent
    omega
  calc |x| < (2 : K) ^ (Int.log 2 |x| + 1) := by exact_mod_cast hlog
    _ ≤ 2 ^ (F.exponent x + F.precision) := zpow_le_zpow_right₀ one_le_two hexponent
    _ = F.unit x * 2 ^ F.precision := by rw [zpow_add₀ two_ne_zero, zpow_natCast, unit]

/-! ### The numbers of the format -/

@[simp] theorem round_zero : F.round (0 : K) = 0 := by
  have hzero : nearestEven (0 : K) = 0 := by exact_mod_cast nearestEven_intCast (K := K) 0
  rw [round, zero_div, hzero, Int.cast_zero, zero_mul]

theorem round_of_holds (h : F.Holds x) : F.round x = x := by
  obtain ⟨m, e, hm, he, hx⟩ := h
  by_cases hzero : x = 0
  · rw [hzero, round_zero]
  have hpow : (0 : K) < 2 ^ e := by positivity
  have habs : |x| < (2 : K) ^ (F.precision + e : ℤ) := by
    rw [hx, abs_mul, abs_of_pos hpow, zpow_add₀ two_ne_zero, zpow_natCast]
    apply mul_lt_mul_of_pos_right _ hpow
    exact_mod_cast hm
  have hlog : Int.log 2 |x| < F.precision + e := by
    apply (Int.lt_zpow_iff_log_lt one_lt_two (abs_pos.mpr hzero)).mp
    exact_mod_cast habs
  have hexponent : F.exponent x ≤ e := by
    unfold exponent
    omega
  -- The quotient by the unit is an integer.
  obtain ⟨k, hk⟩ := Int.le.dest hexponent
  have hquotient : x / F.unit x = (m * 2 ^ k : ℤ) := by
    rw [div_eq_iff (F.unit_pos x).ne', unit]
    calc x = m * 2 ^ (F.exponent x + k) := by rw [hk, hx]
      _ = (m * 2 ^ k : ℤ) * 2 ^ F.exponent x := by
          rw [zpow_add₀ two_ne_zero, zpow_natCast]
          push_cast
          ring
  rw [round, hquotient, nearestEven_intCast, ← hquotient, div_mul_cancel₀ _ (F.unit_pos x).ne']

omit [LinearOrder K] [IsStrictOrderedRing K] [FloorRing K] in
/-- A significand that is a power of two may have one bit more. -/
theorem holds_of_abs_le [CharZero K] {m e : ℤ} (hm : |m| ≤ 2 ^ F.precision)
    (he : F.minExponent ≤ e) : F.Holds ((m : K) * 2 ^ e) := by
  obtain hlt | heq := hm.lt_or_eq
  · exact ⟨m, e, hlt, he, rfl⟩
  · have hone : (1 : ℤ) < 2 ^ F.precision := one_lt_pow₀ one_lt_two F.precision_pos.ne'
    have hle : F.minExponent ≤ F.precision + e := by omega
    have hpow : (2 : K) ^ (F.precision + e : ℤ) = 2 ^ F.precision * 2 ^ e := by
      rw [zpow_add₀ two_ne_zero, zpow_natCast]
    obtain hm | hm := eq_or_eq_neg_of_abs_eq heq
    · exact ⟨1, F.precision + e, hone, hle, by rw [hm, hpow]; push_cast; ring⟩
    · exact ⟨-1, F.precision + e, by simpa using hone, hle, by rw [hm, hpow]; push_cast; ring⟩

omit [LinearOrder K] [IsStrictOrderedRing K] [FloorRing K] in
theorem holds_intCast [CharZero K] (hmin : F.minExponent ≤ 0) {n : ℤ}
    (h : |n| ≤ 2 ^ F.precision) : F.Holds (n : K) := by
  have hholds : F.Holds ((n : K) * 2 ^ (0 : ℤ)) := F.holds_of_abs_le h hmin
  rwa [zpow_zero, mul_one] at hholds

theorem abs_nearestEven_div_unit_le (x : K) :
    |nearestEven (x / F.unit x)| ≤ 2 ^ F.precision := by
  have habs := abs_le.mp (F.abs_lt_unit_mul x).le
  have hle : x / F.unit x ≤ (2 ^ F.precision : ℤ) := by
    rw [div_le_iff₀ (F.unit_pos x), mul_comm]
    push_cast
    exact habs.2
  have hge : ((-2 ^ F.precision : ℤ) : K) ≤ x / F.unit x := by
    rw [le_div_iff₀ (F.unit_pos x), mul_comm]
    push_cast
    linarith [habs.1]
  exact abs_le.mpr ⟨le_nearestEven hge, nearestEven_le hle⟩

/-- What is rounded is in the format. -/
theorem holds_round (x : K) : F.Holds (F.round x) :=
  F.holds_of_abs_le (F.abs_nearestEven_div_unit_le x) (le_max_right _ _)

/-- The integral part takes no more bits. -/
theorem Holds.floor {F : Format} (hmin : F.minExponent ≤ 0) (h : F.Holds x) :
    F.Holds ((⌊x⌋ : ℤ) : K) := by
  obtain ⟨m, e, hm, he, hx⟩ := h
  obtain hneg | hnonneg := lt_or_ge e 0
  · have hpow : (2 : K) ^ e ≤ 1 := zpow_le_one_of_nonpos₀ one_le_two hneg.le
    have habs : |x| ≤ (2 ^ F.precision : ℤ) := by
      rw [hx, abs_mul, abs_of_pos (by positivity : (0 : K) < 2 ^ e)]
      calc |(m : K)| * 2 ^ e ≤ |(m : K)| * 1 := mul_le_mul_of_nonneg_left hpow (abs_nonneg _)
        _ ≤ (2 ^ F.precision : ℤ) := by
            rw [mul_one]
            exact_mod_cast hm.le
    obtain ⟨hge, hle⟩ := abs_le.mp habs
    apply F.holds_intCast hmin
    rw [abs_le]
    constructor
    · apply Int.le_floor.mpr
      push_cast at hge ⊢
      exact hge
    · exact_mod_cast (Int.floor_le x).trans hle
  · obtain ⟨k, rfl⟩ := Int.eq_ofNat_of_zero_le hnonneg
    have hinteger : x = (m * 2 ^ k : ℤ) := by
      rw [hx]
      push_cast
      rw [zpow_natCast]
    have hfloor : ((⌊x⌋ : ℤ) : K) = x := by rw [hinteger, Int.floor_intCast]
    rw [hfloor]
    exact ⟨m, k, hm, he, hx⟩

theorem round_intCast (hmin : F.minExponent ≤ 0) {n : ℤ} (h : |n| ≤ 2 ^ F.precision) :
    F.round (n : K) = n :=
  F.round_of_holds (F.holds_intCast hmin h)

/-- A natural number keeps its first significant bits. -/
theorem round_natCast (hmin : F.minExponent ≤ 0) (n : ℕ) :
    F.round (n : K) = (Significand.round F.precision n : ℕ) := by
  by_cases hn : n.log2 + 1 ≤ F.precision
  · have hunit : Significand.unit F.precision n = 1 := by
      rw [Significand.unit, Nat.sub_eq_zero_of_le hn, pow_zero]
    have hkept : Significand.round F.precision n = n := by
      rw [Significand.round_eq_self_iff, hunit]
      exact one_dvd n
    have hlt : n < 2 ^ F.precision :=
      Nat.lt_log2_self.trans_le (Nat.pow_le_pow_right Nat.two_pos hn)
    have hround : F.round ((n : ℤ) : K) = ((n : ℤ) : K) := by
      apply F.round_intCast hmin
      rw [abs_of_nonneg (Int.natCast_nonneg n)]
      exact_mod_cast hlt.le
    rw [hkept]
    exact_mod_cast hround
  · have hexponent : F.exponent (n : K) = (n.log2 + 1 - F.precision : ℕ) := by
      have hlog : Int.log 2 |(n : K)| = n.log2 := by
        rw [abs_of_nonneg (Nat.cast_nonneg n), Int.log_natCast, Nat.log2_eq_log_two]
      rw [exponent, hlog]
      omega
    have hunit : F.unit (n : K) = (Significand.unit F.precision n : ℕ) := by
      rw [unit, hexponent, zpow_natCast, Significand.unit]
      push_cast
      rfl
    rw [round, hunit, nearestEven_div_mul n (Significand.unit_pos _ n)]
    rfl

theorem exponent_le_iff (hx : x ≠ 0) {k : ℤ} (hk : F.minExponent ≤ k) :
    F.exponent x ≤ k ↔ |x| < 2 ^ (k + F.precision) := by
  have hlog : |x| < ((2 : ℕ) : K) ^ (k + F.precision) ↔ Int.log 2 |x| < k + F.precision :=
    Int.lt_zpow_iff_log_lt one_lt_two (abs_pos.mpr hx)
  rw [Nat.cast_ofNat] at hlog
  rw [hlog, exponent, max_le_iff]
  omega

/-- A multiple of the last bit is in the format. -/
theorem round_of_exponent_le {m c : ℤ} (h : F.exponent ((m : K) * 2 ^ c) ≤ c) :
    F.round ((m : K) * 2 ^ c) = m * 2 ^ c := by
  have hmin : F.minExponent ≤ c := (le_max_right _ _).trans h
  by_cases hm : m = 0
  · rw [hm, Int.cast_zero, zero_mul, round_zero]
  have hpow : (0 : K) < 2 ^ c := by positivity
  have hne : (m : K) * 2 ^ c ≠ 0 := mul_ne_zero (Int.cast_ne_zero.mpr hm) hpow.ne'
  have habs := (F.exponent_le_iff hne hmin).mp h
  rw [abs_mul, abs_of_pos hpow, add_comm, zpow_add₀ two_ne_zero, zpow_natCast] at habs
  apply F.round_of_holds
  refine ⟨m, c, ?_, hmin, rfl⟩
  exact_mod_cast lt_of_mul_lt_mul_right habs hpow.le

/-- Where the last bit is worth more than what is beside a coarser grid, that is
rounded away. -/
theorem round_of_near_grid {n c d : ℤ} {r : K} (hr : |r| ≤ 2 ^ c)
    (hc : c < F.exponent (n * 2 ^ d + r)) (hd : F.exponent (n * 2 ^ d + r) ≤ d)
    (hcd : c + 2 ≤ d) : F.round (n * 2 ^ d + r) = n * 2 ^ d := by
  have hunit : F.unit (n * 2 ^ d + r) = 2 ^ F.exponent (n * 2 ^ d + r) := rfl
  generalize F.exponent (n * 2 ^ d + r) = e at hc hd hunit
  have hpos : (0 : K) < 2 ^ e := by positivity
  obtain ⟨k, rfl⟩ := Int.le.dest hd
  have hgrid : (n : K) * 2 ^ (e + k : ℤ) = (n * 2 ^ k : ℤ) * 2 ^ e := by
    rw [zpow_add₀ two_ne_zero, zpow_natCast]
    push_cast
    ring
  have hquotient : ((n : K) * 2 ^ (e + k : ℤ) + r) / 2 ^ e - (n * 2 ^ k : ℤ) = r / 2 ^ e := by
    rw [hgrid, add_div, mul_div_cancel_right₀ _ hpos.ne', add_sub_cancel_left]
  have hhalf : (2 : K) ^ (e - 1) / 2 ^ e = 1 / 2 := by
    rw [zpow_sub₀ two_ne_zero, zpow_one, div_div_cancel_left' hpos.ne', one_div]
  have hnearest : nearestEven (((n : K) * 2 ^ (e + k : ℤ) + r) / 2 ^ e) = n * 2 ^ k := by
    apply nearestEven_eq
    rw [hquotient, abs_div, abs_of_pos hpos, ← hhalf, div_lt_div_iff_of_pos_right hpos,
      div_left_inj' hpos.ne']
    obtain hlt | heq := (Int.le_sub_one_of_lt hc).lt_or_eq
    · exact Or.inl (hr.trans_lt (zpow_lt_zpow_right₀ one_lt_two hlt))
    · rw [heq] at hr
      refine hr.lt_or_eq.imp_right fun htie => ⟨htie, ?_⟩
      -- The grid is coarse enough for its points to be even.
      obtain ⟨k, rfl⟩ : ∃ k', k = k' + 1 := ⟨k - 1, by omega⟩
      rw [pow_succ, ← mul_assoc]
      exact Int.mul_emod_left _ 2
  rw [round, hunit, hnearest, hgrid]

/-- Integers are rounded to integers. -/
theorem exists_round_intCast (n : ℤ) :
    ∃ m : ℤ, F.round (n : K) = m := by
  obtain hneg | hnonneg := lt_or_ge (F.exponent (n : K)) 0
  · have hle : F.exponent ((n : K) * 2 ^ (0 : ℤ)) ≤ 0 := by
      rw [zpow_zero, mul_one]
      exact hneg.le
    have hround := F.round_of_exponent_le hle
    rw [zpow_zero, mul_one] at hround
    exact ⟨n, hround⟩
  · obtain ⟨k, hk⟩ := Int.eq_ofNat_of_zero_le hnonneg
    have hunit : F.unit (n : K) = 2 ^ k := by
      rw [unit, hk, zpow_natCast]
    refine ⟨nearestEven ((n : K) / 2 ^ k) * 2 ^ k, ?_⟩
    rw [round, hunit]
    push_cast
    rfl

/-! ### The error -/

theorem abs_round_sub_le_unit (x : K) : |F.round x - x| ≤ F.unit x / 2 := by
  have hpos := F.unit_pos x
  have hsplit : F.round x - x = (nearestEven (x / F.unit x) - x / F.unit x) * F.unit x := by
    rw [round, sub_mul, div_mul_cancel₀ _ hpos.ne']
  calc |F.round x - x| = |(nearestEven (x / F.unit x) : K) - x / F.unit x| * F.unit x := by
        rw [hsplit, abs_mul, abs_of_pos hpos]
    _ ≤ 1 / 2 * F.unit x :=
        mul_le_mul_of_nonneg_right (abs_nearestEven_sub_le _) hpos.le
    _ = F.unit x / 2 := by ring

theorem Normal.unit_mul_le {F : Format} (hx : F.Normal x) :
    F.unit x * 2 ^ F.precision ≤ 2 * |x| := by
  have habs : 0 < |x| := lt_of_lt_of_le (by positivity) hx
  have hmin : F.minExponent + F.precision - 1 ≤ Int.log 2 |x| := by
    apply (Int.zpow_le_iff_le_log one_lt_two habs).mp
    exact_mod_cast hx
  have hexponent : F.exponent x + F.precision = Int.log 2 |x| + 1 := by
    unfold exponent
    omega
  have hlog : ((2 : ℕ) : K) ^ Int.log 2 |x| ≤ |x| := Int.zpow_log_le_self one_lt_two habs
  calc F.unit x * 2 ^ F.precision = 2 ^ (F.exponent x + F.precision) := by
        rw [zpow_add₀ two_ne_zero, zpow_natCast, unit]
    _ = 2 * 2 ^ Int.log 2 |x| := by
        rw [hexponent, zpow_add₀ two_ne_zero, zpow_one, mul_comm]
    _ ≤ 2 * |x| := mul_le_mul_of_nonneg_left (by exact_mod_cast hlog) zero_le_two

/-- The relative error is at most half of what the last bit is worth. -/
theorem Normal.abs_round_sub_le {F : Format} (hx : F.Normal x) :
    |F.round x - x| ≤ |x| / 2 ^ F.precision := by
  have hpow : (0 : K) < 2 ^ F.precision := by positivity
  rw [le_div_iff₀ hpow]
  calc |F.round x - x| * 2 ^ F.precision ≤ F.unit x / 2 * 2 ^ F.precision :=
        mul_le_mul_of_nonneg_right (F.abs_round_sub_le_unit x) hpow.le
    _ ≤ |x| := by linarith [hx.unit_mul_le]

theorem Normal.round_pos {F : Format} (hx : F.Normal x) (hpos : 0 < x) : 0 < F.round x := by
  have herror := abs_le.mp hx.abs_round_sub_le
  have htwo : (2 : K) ≤ 2 ^ F.precision := le_self_pow₀ one_le_two F.precision_pos.ne'
  have hhalf : |x| / 2 ^ F.precision ≤ x / 2 := by
    rw [abs_of_pos hpos]
    exact div_le_div_of_nonneg_left hpos.le two_pos htwo
  linarith

/-! ### The order -/

/-- A number with a smaller last bit is not rounded beyond the power of two
that its bits end at. -/
theorem round_le_two_zpow (x : K) : F.round x ≤ 2 ^ (F.exponent x + F.precision) := by
  have hnearest : (nearestEven (x / F.unit x) : K) ≤ 2 ^ F.precision := by
    exact_mod_cast (le_abs_self _).trans (F.abs_nearestEven_div_unit_le x)
  calc F.round x ≤ 2 ^ F.precision * F.unit x :=
        mul_le_mul_of_nonneg_right hnearest (F.unit_pos x).le
    _ = 2 ^ (F.exponent x + F.precision) := by
        rw [unit, zpow_add₀ two_ne_zero, zpow_natCast, mul_comm]

/-- A number that uses all of its bits is not rounded below the power of two
that its bits begin at. -/
theorem two_zpow_le_round (hx : 0 < x) (h : F.minExponent < F.exponent x) :
    2 ^ (F.exponent x + F.precision - 1) ≤ F.round x := by
  have hlog : F.exponent x + F.precision - 1 = Int.log 2 x := by
    rw [exponent, abs_of_pos hx] at h ⊢
    omega
  have hself : ((2 : ℕ) : K) ^ Int.log 2 x ≤ x := Int.zpow_log_le_self one_lt_two hx
  have hsplit : (2 : K) ^ (F.exponent x + F.precision - 1) = 2 ^ (F.precision - 1) * F.unit x := by
    have hexponent : F.exponent x + F.precision - 1 =
        (F.precision - 1 : ℕ) + F.exponent x := by
      have hpos := F.precision_pos
      omega
    rw [hexponent, zpow_add₀ two_ne_zero, zpow_natCast, unit]
  have hle : ((2 ^ (F.precision - 1) : ℤ) : K) ≤ x / F.unit x := by
    rw [le_div_iff₀ (F.unit_pos x)]
    push_cast
    rw [← hsplit, hlog]
    exact_mod_cast hself
  have hnearest : (2 : K) ^ (F.precision - 1) ≤ nearestEven (x / F.unit x) := by
    exact_mod_cast le_nearestEven hle
  rw [hsplit]
  exact mul_le_mul_of_nonneg_right hnearest (F.unit_pos x).le

/-- Rounding keeps the order, also across powers of two. -/
theorem round_mono_of_nonneg (hx : 0 ≤ x) (h : x ≤ y) : F.round x ≤ F.round y := by
  obtain rfl | hpos := hx.eq_or_lt
  · rw [round_zero, round]
    apply mul_nonneg _ (F.unit_pos y).le
    have hquotient : ((0 : ℤ) : K) ≤ y / F.unit y := by
      rw [Int.cast_zero]
      exact div_nonneg h (F.unit_pos y).le
    exact_mod_cast le_nearestEven hquotient
  have habs : |x| ≤ |y| := by rwa [abs_of_pos hpos, abs_of_nonneg (hx.trans h)]
  obtain hlt | heq := (F.exponent_mono hpos.ne' habs).lt_or_eq
  · have hmin : F.minExponent < F.exponent y := (le_max_right _ _).trans_lt hlt
    calc F.round x ≤ 2 ^ (F.exponent x + F.precision) := F.round_le_two_zpow x
      _ ≤ 2 ^ (F.exponent y + F.precision - 1) :=
          zpow_le_zpow_right₀ one_le_two (by omega)
      _ ≤ F.round y := F.two_zpow_le_round (hpos.trans_le h) hmin
  · have hunit : F.unit x = F.unit y := congrArg (fun e : ℤ => (2 : K) ^ e) heq
    have hquotient : x / F.unit y ≤ y / F.unit y := div_le_div_of_nonneg_right h (F.unit_pos y).le
    rw [round, round, hunit]
    exact mul_le_mul_of_nonneg_right (Int.cast_le.mpr (nearestEven_mono hquotient))
      (F.unit_pos y).le

@[simp] theorem round_neg (x : K) : F.round (-x) = -F.round x := by
  have hunit : F.unit (-x) = F.unit x := by
    rw [unit, unit, exponent, exponent, abs_neg]
  rw [round, round, hunit, neg_div, nearestEven_neg, Int.cast_neg, neg_mul]

theorem round_nonneg (hx : 0 ≤ x) : 0 ≤ F.round x :=
  F.round_zero.symm.trans_le (F.round_mono_of_nonneg (le_refl 0) hx)

theorem round_mono (h : x ≤ y) : F.round x ≤ F.round y := by
  obtain hx | hx := le_total 0 x
  · exact F.round_mono_of_nonneg hx h
  have hneg : F.round x ≤ 0 := by
    have hround := F.round_nonneg (neg_nonneg.mpr hx)
    rw [round_neg] at hround
    exact neg_nonneg.mp hround
  obtain hy | hy := le_total 0 y
  · exact hneg.trans (F.round_nonneg hy)
  · have hround := F.round_mono_of_nonneg (neg_nonneg.mpr hy) (neg_le_neg h)
    rw [round_neg, round_neg] at hround
    exact neg_le_neg_iff.mp hround

/-- An integer is reached by rounding when it was reached before. -/
theorem le_round_intCast_iff (hmin : F.minExponent ≤ 0) {m n : ℤ}
    (hm : |m| ≤ 2 ^ F.precision) (hm' : |m - 1| ≤ 2 ^ F.precision) :
    (m : K) ≤ F.round (n : K) ↔ m ≤ n := by
  constructor
  · intro h
    by_contra hlt
    have hle : (n : K) ≤ (m - 1 : ℤ) := by exact_mod_cast Int.le_sub_one_of_lt (not_le.mp hlt)
    have hround := h.trans (F.round_mono hle)
    rw [F.round_intCast hmin hm', Int.cast_le] at hround
    omega
  · intro h
    have hround := F.round_mono (Int.cast_le (R := K).mpr h)
    rwa [F.round_intCast hmin hm] at hround

end Format

/-- The format of a `float`. -/
def single : Format := ⟨24, -149, by decide⟩

end BinaryFloat
