import RadioChatter.Input.IntegerHertz
import RadioChatter.Lib.BinaryFloat

/-!
Frequencies in single precision.

A number is rounded when `strtof` reads it, and again when a suffix is applied
to it. The factor of the suffix is a `double`, in which the product of a
`float` and a power of ten is exact, so that only the assignment rounds.
-/

namespace RadioChatter.Input

open C99 BinaryFloat

/-- Values are rounded to a `float`, and a value in range is truncated. What
becomes of an overflow is left open. -/
structure Binary32 (a : Arithmetic) : Prop where
  round : ∀ q : ℚ, |single.round q| < 2 ^ 128 → a.round q = .fin (single.round q)
  toUInt32 : ∀ q : ℚ, 0 ≤ q → q < 2 ^ 32 → a.toUInt32 (.fin q) = ⌊q⌋.toNat

/-- Such an arithmetic, in which an overflow is infinite; values out of range
are converted to 0. -/
def binary32Arithmetic : Arithmetic where
  round q := if |single.round q| < 2 ^ 128 then .fin (single.round q) else .inf (q < 0)
  toUInt32
    | .fin q => if 0 ≤ q ∧ q < 2 ^ 32 then ⌊q⌋.toNat else 0
    | _ => 0

theorem binary32_binary32Arithmetic : Binary32 binary32Arithmetic where
  round _ hq := if_pos hq
  toUInt32 _ hq hlt := if_pos ⟨hq, hlt⟩

/-- Whole hertz are rounded to 24 significant bits. -/
theorem Binary32.round_natCast {a : Arithmetic} (ha : Binary32 a) {n : ℕ} (h : n < 2 ^ 32) :
    a.round n = .fin (Significand.round 24 n : ℕ) := by
  have hround : single.round (n : ℚ) = (Significand.round 24 n : ℕ) :=
    single.round_natCast (by decide) n
  have hlog : n.log2 + 1 ≤ 32 := by
    by_cases hn : n = 0
    · rw [hn, Nat.log2_zero]
      omega
    · exact (Nat.log2_lt hn).mpr h
  have hle : Significand.round 24 n ≤ 2 ^ 32 :=
    (Significand.round_le_two_pow 24 n).trans (Nat.pow_le_pow_right Nat.two_pos hlog)
  rw [ha.round, hround]
  rw [hround, abs_of_nonneg (Nat.cast_nonneg _)]
  exact_mod_cast hle.trans_lt (by norm_num)

/-- The relative error of two roundings. -/
def accuracy : ℚ := 1 / 2 ^ 23 + 1 / 2 ^ 48

/-- A `float` with its suffix. -/
def Suffix.rounded : Suffix → ℚ → ℚ
  | .none, q => q
  | s, q => single.round (q * s.multiplier)

namespace Frequency

/-- At least 1 Hz, and in range after it is rounded. -/
def Tunable (f : Frequency) : Prop := 1 ≤ f.hertz ∧ f.hertz * (1 + accuracy) < 2 ^ 32

/-- The value of a frequency before it is converted. -/
def rounded (f : Frequency) : ℚ := f.suffix.rounded (single.round (f.number.value 10))

/-- The hertz that are stored. -/
def stored (f : Frequency) : ℕ := ⌊f.rounded⌋.toNat

end Frequency

/-! ### The error of one frequency -/

theorem normal_of_le {q : ℚ} (h : 1 / 10 ^ 7 ≤ q) : single.Normal q := by
  have hpos : (0 : ℚ) < q := lt_of_lt_of_le (by norm_num) h
  have hmin : (2 : ℚ) ^ (single.minExponent + single.precision - 1) ≤ 1 / 10 ^ 7 := by
    norm_num [single]
  rw [Format.Normal, abs_of_pos hpos]
  exact hmin.trans h

theorem abs_round_sub_le {q : ℚ} (h : 1 / 10 ^ 7 ≤ q) : |single.round q - q| ≤ q / 2 ^ 24 := by
  have hpos : (0 : ℚ) < q := lt_of_lt_of_le (by norm_num) h
  have herror := (normal_of_le h).abs_round_sub_le
  rwa [abs_of_pos hpos] at herror

theorem Suffix.one_le_multiplier (s : Suffix) : 1 ≤ s.multiplier := by
  cases s <;> norm_num [Suffix.multiplier]

theorem Suffix.multiplier_le (s : Suffix) : s.multiplier ≤ 10 ^ 6 := by
  cases s <;> norm_num [Suffix.multiplier]

namespace Suffix

variable {q : ℚ}

/-- The second rounding starts from a value that is already off. -/
theorem abs_round_mul_sub_le (s : Suffix) (hq : 1 / 10 ^ 6 ≤ q) :
    |single.round (single.round q * s.multiplier) - q * s.multiplier| ≤
      q * s.multiplier * accuracy := by
  have hq' : (1 : ℚ) / 10 ^ 7 ≤ q := le_trans (by norm_num) hq
  have hone := s.one_le_multiplier
  have hpos : 0 < s.multiplier := zero_lt_one.trans_le hone
  have hfirst : |single.round q * s.multiplier - q * s.multiplier| ≤ q * s.multiplier / 2 ^ 24 := by
    rw [← sub_mul, abs_mul, abs_of_pos hpos, mul_div_right_comm]
    exact mul_le_mul_of_nonneg_right (abs_round_sub_le hq') hpos.le
  have hbound := abs_le.mp hfirst
  have hlarge : (1 : ℚ) / 10 ^ 7 ≤ single.round q * s.multiplier := by
    have hmul : q ≤ q * s.multiplier := le_mul_of_one_le_right (le_trans (by norm_num) hq) hone
    linarith
  have hsecond := abs_round_sub_le hlarge
  calc |single.round (single.round q * s.multiplier) - q * s.multiplier|
      ≤ |single.round (single.round q * s.multiplier) - single.round q * s.multiplier| +
        |single.round q * s.multiplier - q * s.multiplier| := abs_sub_le _ _ _
    _ ≤ single.round q * s.multiplier / 2 ^ 24 + q * s.multiplier / 2 ^ 24 :=
        add_le_add hsecond hfirst
    _ ≤ q * s.multiplier * accuracy := by
        rw [accuracy]
        linarith

theorem abs_rounded_sub_le (s : Suffix) (hq : 1 / 10 ^ 6 ≤ q) :
    |s.rounded (single.round q) - q * s.multiplier| ≤ q * s.multiplier * accuracy := by
  cases s with
  | none =>
      have herror := abs_round_sub_le (le_trans (by norm_num) hq)
      have hpos : (0 : ℚ) ≤ q := le_trans (by norm_num) hq
      rw [rounded, multiplier, mul_one, accuracy]
      linarith
  | k => exact abs_round_mul_sub_le .k hq
  | M => exact abs_round_mul_sub_le .M hq

end Suffix

namespace Frequency

variable {f g : Frequency}

theorem Tunable.hertz_lt (hf : f.Tunable) : f.hertz < 2 ^ 32 := by
  have haccuracy : 0 ≤ f.hertz * accuracy := by
    apply mul_nonneg (zero_le_one.trans hf.1)
    norm_num [accuracy]
  have hlt := hf.2
  rw [mul_add, mul_one] at hlt
  linarith

theorem Tunable.number_ge (hf : f.Tunable) : 1 / 10 ^ 6 ≤ f.number.value 10 := by
  have hone : 1 ≤ f.number.value 10 * f.suffix.multiplier := hf.1
  have hmul : f.number.value 10 * f.suffix.multiplier ≤ f.number.value 10 * 10 ^ 6 :=
    mul_le_mul_of_nonneg_left f.suffix.multiplier_le f.positive.le
  linarith

theorem Tunable.abs_rounded_sub_le (hf : f.Tunable) :
    |f.rounded - f.hertz| ≤ f.hertz * accuracy :=
  f.suffix.abs_rounded_sub_le hf.number_ge

theorem Tunable.rounded_pos (hf : f.Tunable) : 0 < f.rounded := by
  have herror := abs_le.mp hf.abs_rounded_sub_le
  have hhalf : f.hertz * accuracy ≤ f.hertz * (1 / 2) := by
    apply mul_le_mul_of_nonneg_left _ (zero_le_one.trans hf.1)
    norm_num [accuracy]
  linarith [hf.1]

theorem Tunable.rounded_le (hf : f.Tunable) : f.rounded ≤ f.hertz * (1 + accuracy) := by
  have herror := abs_le.mp hf.abs_rounded_sub_le
  rw [mul_add, mul_one]
  linarith

theorem Tunable.stored_le (hf : f.Tunable) : (f.stored : ℚ) ≤ f.rounded := by
  have hle := Int.floor_le f.rounded
  rwa [← Int.toNat_of_nonneg (Int.floor_nonneg.mpr hf.rounded_pos.le), Int.cast_natCast] at hle

/-- Truncation costs less than 1 Hz. -/
theorem Tunable.abs_stored_sub_lt (hf : f.Tunable) :
    |(f.stored : ℚ) - f.hertz| < 1 + f.hertz * accuracy := by
  have herror := abs_le.mp hf.abs_rounded_sub_le
  have hle := hf.stored_le
  have hlt : f.rounded < f.stored + 1 := by
    have hlt := Int.lt_floor_add_one f.rounded
    rwa [← Int.toNat_of_nonneg (Int.floor_nonneg.mpr hf.rounded_pos.le), Int.cast_natCast] at hlt
  rw [abs_lt]
  constructor <;> linarith

end Frequency

/-! ### The frequencies of a text -/

namespace Binary32

variable {a : Arithmetic} (ha : Binary32 a)

include ha

theorem round_of_lt {q : ℚ} (hq : 1 / 10 ^ 7 ≤ q) (hlt : q < 2 ^ 100) :
    a.round q = .fin (single.round q) := by
  have herror := abs_le.mp (abs_round_sub_le hq)
  apply ha.round
  rw [abs_lt]
  constructor <;> linarith

theorem float_number {f : Frequency} (hf : f.Tunable) :
    a.float f.number.toNumeral = .fin (single.round (f.number.value 10)) := by
  have hle : f.number.value 10 ≤ f.hertz :=
    le_mul_of_one_le_right f.positive.le f.suffix.one_le_multiplier
  rw [Arithmetic.float, Decimal.value_toNumeral, Value.bind]
  apply ha.round_of_lt
  · linarith [hf.number_ge]
  · linarith [hf.hertz_lt]

theorem startable {f : Frequency} (hf : f.Tunable) : Startable (a.float f.number.toNumeral) := by
  rw [ha.float_number hf, startable_fin]
  exact (normal_of_le (le_trans (by norm_num) hf.number_ge)).round_pos f.positive

/-- The product does not overflow. -/
theorem round_mul {f : Frequency} (hf : f.Tunable) :
    a.round (single.round (f.number.value 10) * f.suffix.multiplier) =
      .fin (single.round (single.round (f.number.value 10) * f.suffix.multiplier)) := by
  have hnumber := hf.number_ge
  have herror := abs_le.mp (abs_round_sub_le (le_trans (by norm_num) hnumber))
  have hpos : 0 ≤ single.round (f.number.value 10) := by linarith
  have hone := le_mul_of_one_le_right hpos f.suffix.one_le_multiplier
  have hmul := mul_le_mul_of_nonneg_left f.suffix.multiplier_le hpos
  have hle : f.number.value 10 ≤ f.hertz :=
    le_mul_of_one_le_right f.positive.le f.suffix.one_le_multiplier
  apply ha.round_of_lt
  · linarith
  · linarith [hf.hertz_lt]

theorem suffix_apply {f : Frequency} (hf : f.Tunable) :
    f.suffix.apply a (a.float f.number.toNumeral) = .fin f.rounded := by
  have hmul := ha.round_mul hf
  rw [ha.float_number hf, Frequency.rounded]
  cases hsuffix : f.suffix with
  | none => rfl
  | k =>
      have hthousand : (1000 : ℚ) = Suffix.k.multiplier := by norm_num [Suffix.multiplier]
      rw [hsuffix] at hmul
      rw [Suffix.apply, Value.bind, hthousand, hmul]
      rfl
  | M =>
      have hmillion : (1000000 : ℚ) = Suffix.M.multiplier := by norm_num [Suffix.multiplier]
      rw [hsuffix] at hmul
      rw [Suffix.apply, Value.bind, hmillion, hmul]
      rfl

theorem toUInt32_rounded {f : Frequency} (hf : f.Tunable) :
    a.toUInt32 (.fin f.rounded) = f.stored :=
  ha.toUInt32 _ hf.rounded_pos.le (hf.rounded_le.trans_lt hf.2)

/-- What is stored for a documented text. -/
theorem sanitize_text {range : FrequencyRange} (hbare : range.BareEnd)
    (hstart : range.start.Tunable) (hstop : range.stop.Tunable) (input : ProgramInput) :
    sanitizeFrequencyRange a range.text input =
      some { input with freqStart := range.start.stored, freqEnd := range.stop.stored } := by
  have hending : range.ending.NotNegative a := by
    cases range with
    | single f => trivial
    | range start stop => exact (ha.startable hstop).1
  have hvalue : range.ending.value a (.fin range.start.rounded) = .fin range.stop.rounded := by
    cases range with
    | single f => rfl
    | range start stop =>
        have hsuffix : stop.suffix = .none := hbare
        have happly := ha.suffix_apply hstop
        rwa [FrequencyRange.stop, hsuffix] at happly
  have hrest := (range.ending_text_eq_rest_iff range.ending).mpr ⟨hbare, rfl⟩
  have hread : frequencyRange a range.text =
      some (.fin range.start.rounded, .fin range.stop.rounded) := by
    rw [range.text_eq, ← hrest, frequencyRange_append (ha.startable hstart) _ hending,
      ha.suffix_apply hstart, hvalue]
  rw [sanitizeFrequencyRange, hread, Option.map_some]
  dsimp only
  rw [ha.toUInt32_rounded hstart, ha.toUInt32_rounded hstop]

end Binary32

/-! ### What is tuned -/

variable {a : Arithmetic}

/-- **The accuracy of a scan.** The frequencies that are stored for a documented
text are those that it gives, up to the truncation and to the relative error of
two roundings. -/
theorem sanitize_accurate (ha : Binary32 a) {range : FrequencyRange} (hbare : range.BareEnd)
    (hstart : range.start.Tunable) (hstop : range.stop.Tunable) (input : ProgramInput) :
    ∃ n m : ℕ, sanitizeFrequencyRange a range.text input =
        some { input with freqStart := n, freqEnd := m } ∧
      |(n : ℚ) - range.start.hertz| < 1 + range.start.hertz * accuracy ∧
      |(m : ℚ) - range.stop.hertz| < 1 + range.stop.hertz * accuracy :=
  ⟨_, _, ha.sanitize_text hbare hstart hstop input, hstart.abs_stored_sub_lt,
    hstop.abs_stored_sub_lt⟩

theorem tunable_lowFrequency : lowFrequency.Tunable := by
  unfold Frequency.Tunable
  decide +kernel

theorem tunable_highFrequency : (highFrequency .none).Tunable := by
  unfold Frequency.Tunable
  decide +kernel

theorem sanitize_accurate_airband :
    ∃ n m : ℕ, sanitizeFrequencyRange binary32Arithmetic "112.6M-136.5".toList
        defaultProgramInput = some { defaultProgramInput with freqStart := n, freqEnd := m } ∧
      |(n : ℚ) - 112600000| < 15 ∧ |(m : ℚ) - 273 / 2| < 2 := by
  have htext : (FrequencyRange.range lowFrequency (highFrequency .none)).text =
      "112.6M-136.5".toList := by decide
  have hlow : lowFrequency.hertz = 112600000 := by decide +kernel
  have hhigh : (highFrequency .none).hertz = 273 / 2 := by decide +kernel
  have hbare : (FrequencyRange.range lowFrequency (highFrequency .none)).BareEnd := rfl
  obtain ⟨n, m, hread, hn, hm⟩ := sanitize_accurate binary32_binary32Arithmetic hbare
    tunable_lowFrequency tunable_highFrequency defaultProgramInput
  rw [htext] at hread
  rw [FrequencyRange.start, hlow, accuracy] at hn
  rw [FrequencyRange.stop, hhigh, accuracy] at hm
  exact ⟨n, m, hread, hn.trans (by norm_num), hm.trans (by norm_num)⟩

/-- Truncation takes a whole hertz from `1.004k`, and not from `1004`. -/
example : frequencyRange binary32Arithmetic "1004".toList = some (.fin 1004, .fin 1004) ∧
    (sanitizeFrequencyRange binary32Arithmetic "1.004k".toList defaultProgramInput).map
      ProgramInput.freqStart = some 1003 := by
  decide +kernel

end RadioChatter.Input
