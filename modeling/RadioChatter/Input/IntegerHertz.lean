import RadioChatter.Input.RangeSyntax
import RadioChatter.Lib.Significand

/-!
Frequencies that are given in whole hertz.

A `float` has 24 significant bits, a `uint32_t` has 32. The number is rounded
before it is stored, so the frequencies that are kept are those that a `float`
can hold, and two frequencies of a range that are rounded to one value become
a single frequency.
-/

namespace RadioChatter.Input

open C99 Significand

/-- `strtof` of a whole number is rounded to 24 bits, and a value in range is
truncated. -/
structure Float24 (a : Arithmetic) : Prop where
  round : ∀ n : ℕ, a.round n = .fin (round 24 n)
  toUInt32 : ∀ q : ℚ, 0 ≤ q → q < 2 ^ 32 → a.toUInt32 (.fin q) = ⌊q⌋.toNat

/-- Such an arithmetic; values out of range are converted to 0. -/
def float24Arithmetic : Arithmetic where
  round q := if q = q.num.toNat then .fin (Significand.round 24 q.num.toNat) else .fin q
  toUInt32
    | .fin q => if 0 ≤ q ∧ q < 2 ^ 32 then ⌊q⌋.toNat else 0
    | _ => 0

theorem float24_float24Arithmetic : Float24 float24Arithmetic where
  round n := by simp [float24Arithmetic]
  toUInt32 q hq hlt := if_pos ⟨hq, hlt⟩

/-- The text of a single frequency in hertz. -/
def hertzText (n : ℕ) : List Char := Nat.toDigits 10 n

def hertzRangeText (n m : ℕ) : List Char := hertzText n ++ '-' :: hertzText m

/-- The frequency comes out as it was given. -/
def Kept (n : ℕ) : Prop :=
  ∀ a, Float24 a → ∀ input, sanitizeFrequencyRange a (hertzText n) input =
    some { input with freqStart := n, freqEnd := n }

/-- The range comes out as a range. -/
def Ordered (n m : ℕ) : Prop :=
  ∀ a, Float24 a → ∀ input, ∃ input', sanitizeFrequencyRange a (hertzRangeText n m) input =
    some input' ∧ input'.freqStart < input'.freqEnd

/-! ### Reading whole numbers -/

@[simp] theorem digitsValue_toDigits (n : ℕ) : digitsValue 10 (Nat.toDigits 10 n) = n := by
  have hread : Nat.ofDigitChars 10 (Nat.toDigits 10 n) 0 = n := Nat.ofDigitChars_ten_toDigits
  conv_rhs => rw [← hread]
  rw [digitsValue, Nat.ofDigitChars]
  apply List.foldl_ext
  intro value c hc
  have hdigit : c.isDigit = true := Nat.isDigit_of_mem_toDigits (by decide) (by decide) hc
  rw [digitValue, if_pos hdigit]
  simp [Nat.mul_comm]

/-- A whole number as a decimal. -/
def wholeDecimal (n : ℕ) : Decimal where
  whole := ⟨Nat.toDigits 10 n, fun _ hc =>
    Nat.isDigit_of_mem_toDigits (by decide) (by decide) hc⟩
  fraction := none
  nonempty := .inl Nat.toDigits_ne_nil
  whole_ne_nil := Nat.toDigits_ne_nil
  fraction_ne_nil := nofun

@[simp] theorem text_wholeDecimal (n : ℕ) : (wholeDecimal n).toNumeral.text = hertzText n := by
  rw [Decimal.text_toNumeral]
  exact List.append_nil _

@[simp] theorem value_wholeDecimal (n : ℕ) : (wholeDecimal n).value 10 = n := by
  have hdigits : (wholeDecimal n).fractionDigits = [] := rfl
  rw [Mantissa.value, hdigits, List.append_nil, List.length_nil, pow_zero, div_one]
  exact congrArg Nat.cast (digitsValue_toDigits n)

section Float24

variable {a : Arithmetic} (ha : Float24 a)

include ha

theorem Float24.float_wholeDecimal (n : ℕ) :
    a.float (wholeDecimal n).toNumeral = .fin (Significand.round 24 n) := by
  rw [Arithmetic.float, Decimal.value_toNumeral, Value.bind, value_wholeDecimal, ha.round]

theorem Float24.startable {n : ℕ} (hn : 0 < n) :
    Startable (a.float (wholeDecimal n).toNumeral) := by
  rw [ha.float_wholeDecimal, startable_fin]
  exact_mod_cast round_pos (by decide) hn.ne'

theorem Float24.toUInt32_natCast {n : ℕ} (h : n < 2 ^ 32) : a.toUInt32 (.fin n) = n := by
  rw [ha.toUInt32 n (Nat.cast_nonneg n) (by exact_mod_cast h)]
  simp

theorem Float24.sanitize_hertzText {n : ℕ} (hn : 0 < n) (input : ProgramInput) :
    sanitizeFrequencyRange a (hertzText n) input = some { input with
      freqStart := a.toUInt32 (.fin (Significand.round 24 n))
      freqEnd := a.toUInt32 (.fin (Significand.round 24 n)) } := by
  have hending : Ending.none.NotNegative a := trivial
  have hread := frequencyRange_append (ha.startable hn) .none hending
  rw [text_wholeDecimal, ha.float_wholeDecimal] at hread
  have htext : hertzText n ++ (Suffix.none.text ++ Ending.none.text) = hertzText n :=
    List.append_nil _
  rw [htext] at hread
  rw [sanitizeFrequencyRange, hread]
  rfl

theorem Float24.sanitize_hertzRangeText {n m : ℕ} (hn : 0 < n) (hm : 0 < m)
    (input : ProgramInput) :
    sanitizeFrequencyRange a (hertzRangeText n m) input = some { input with
      freqStart := a.toUInt32 (.fin (Significand.round 24 n))
      freqEnd := a.toUInt32 (.fin (Significand.round 24 m)) } := by
  have hending : (Ending.numeral (wholeDecimal m).toNumeral).NotNegative a := (ha.startable hm).1
  have hread := frequencyRange_append (ha.startable hn) .none hending
  rw [text_wholeDecimal, Ending.text, text_wholeDecimal, ha.float_wholeDecimal, Ending.value,
    ha.float_wholeDecimal] at hread
  rw [sanitizeFrequencyRange, hertzRangeText]
  exact congrArg (Option.map _) hread

end Float24

/-! ### What is kept -/

/-- The largest numbers are rounded out of range. -/
theorem round_lt_iff {n : ℕ} (h : n < 2 ^ 32) :
    Significand.round 24 n < 2 ^ 32 ↔ n < 2 ^ 32 - 2 ^ 7 := by
  by_cases hlog : n.log2 = 31
  · simp only [Significand.round, unit, roundTo, hlog]
    split
    · omega
    · omega
  · have hlt : n.log2 < 31 := by
      by_cases hn : n = 0
      · rw [hn, Nat.log2_zero]
        omega
      · have hle := (Nat.log2_lt hn).mpr h
        omega
    have hround : Significand.round 24 n ≤ 2 ^ 31 :=
      (round_le_two_pow 24 n).trans (Nat.pow_le_pow_right (by omega) hlt)
    have hself : n < 2 ^ 31 := Nat.lt_log2_self.trans_le (Nat.pow_le_pow_right (by omega) hlt)
    omega

/-- Out of range the conversion yields 0 here. -/
theorem float24Arithmetic_toUInt32_of_le {n : ℕ} (h : 2 ^ 32 ≤ n) :
    float24Arithmetic.toUInt32 (.fin n) = 0 := by
  have hout : ¬ (n : ℚ) < 2 ^ 32 := by exact_mod_cast not_lt.mpr h
  exact if_neg fun hrange => hout hrange.2

theorem kept_iff {n : ℕ} (hn : 0 < n) (h : n < 2 ^ 32) : Kept n ↔ unit 24 n ∣ n := by
  rw [← round_eq_self_iff]
  constructor
  · intro hkept
    have hstored := hkept _ float24_float24Arithmetic defaultProgramInput
    rw [float24_float24Arithmetic.sanitize_hertzText hn] at hstored
    have hstart := congrArg ProgramInput.freqStart (Option.some.inj hstored)
    dsimp only at hstart
    by_cases hround : Significand.round 24 n < 2 ^ 32
    · rwa [float24_float24Arithmetic.toUInt32_natCast hround] at hstart
    · rw [float24Arithmetic_toUInt32_of_le (not_lt.mp hround)] at hstart
      omega
  · intro hround a ha input
    rw [ha.sanitize_hertzText hn, hround, ha.toUInt32_natCast h]

theorem ordered_iff {n m : ℕ} (hn : 0 < n) (hnm : n < m) (hm : m < 2 ^ 32) :
    Ordered n m ↔ Significand.round 24 n ≠ Significand.round 24 m ∧ m < 2 ^ 32 - 2 ^ 7 := by
  have hmono : Significand.round 24 n ≤ Significand.round 24 m := round_mono (by decide) hnm.le
  have hm0 : 0 < m := hn.trans hnm
  rw [← round_lt_iff hm]
  constructor
  · intro hordered
    obtain ⟨input', hstored, hlt⟩ :=
      hordered _ float24_float24Arithmetic defaultProgramInput
    rw [float24_float24Arithmetic.sanitize_hertzRangeText hn hm0] at hstored
    obtain rfl := Option.some.inj hstored
    dsimp only at hlt
    by_cases hround : Significand.round 24 m < 2 ^ 32
    · refine ⟨?_, hround⟩
      intro heq
      rw [heq] at hlt
      exact lt_irrefl _ hlt
    · rw [float24Arithmetic_toUInt32_of_le (not_lt.mp hround)] at hlt
      exact absurd hlt (Nat.not_lt_zero _)
  · rintro ⟨hne, hround⟩ a ha input
    refine ⟨_, ha.sanitize_hertzRangeText hn hm0 input, ?_⟩
    dsimp only
    rw [ha.toUInt32_natCast (hmono.trans_lt hround), ha.toUInt32_natCast hround]
    omega

/-- **Whole hertz.** A frequency is kept if it has 24 significant bits, and a
range stays one if its ends are rounded apart. -/
theorem integerHertz_iff {n : ℕ} (hn : 0 < n) (h : n < 2 ^ 32) :
    (Kept n ↔ 2 ^ (n.log2 + 1 - 24) ∣ n) ∧
      ∀ m, n < m → m < 2 ^ 32 →
        (Ordered n m ↔ Significand.round 24 n ≠ Significand.round 24 m ∧ m < 2 ^ 32 - 2 ^ 7) :=
  ⟨kept_iff hn h, fun _ hnm hm => ordered_iff hn hnm hm⟩

theorem integerHertz_iff_airband : Kept 105100000 ∧ Ordered 105100000 105200000 := by
  obtain ⟨hkept, hordered⟩ := integerHertz_iff (n := 105100000) (by decide) (by decide)
  exact ⟨hkept.mpr (by decide +kernel),
    (hordered 105200000 (by decide) (by decide)).mpr (by decide +kernel)⟩

/-- The first number that a `float` cannot hold, and a range that ends there. -/
theorem not_kept_not_ordered :
    (sanitizeFrequencyRange float24Arithmetic "16777217".toList defaultProgramInput =
        some { defaultProgramInput with freqStart := 16777216, freqEnd := 16777216 } ∧
      hertzText 16777217 = "16777217".toList ∧ ¬ Kept 16777217) ∧
    sanitizeFrequencyRange float24Arithmetic "16777216-16777217".toList defaultProgramInput =
        some { defaultProgramInput with freqStart := 16777216, freqEnd := 16777216 } ∧
      hertzRangeText 16777216 16777217 = "16777216-16777217".toList ∧
      ¬ Ordered 16777216 16777217 := by
  refine ⟨⟨by decide +kernel, by decide +kernel, ?_⟩, by decide +kernel, by decide +kernel, ?_⟩
  · rw [kept_iff (by decide) (by decide)]
    decide +kernel
  · rw [ordered_iff (by decide) (by decide) (by decide)]
    decide +kernel

end RadioChatter.Input
