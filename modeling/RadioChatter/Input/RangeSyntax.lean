import RadioChatter.Input.FrequencyRange

/-!
The documented syntax of a frequency range, and how far it and the accepted
texts agree.

A range is a frequency or two of them with a minus sign between, and a
frequency is a positive decimal with a suffix. Every such text without a
suffix on its end is read as it is meant; what is accepted beyond these texts
are numerals of other kinds and an end that is missing or zero.
-/

namespace RadioChatter.Input

open C99

/-! ### The syntax -/

/-- Digits with an optional fraction. -/
structure Decimal extends Mantissa Char.isDigit where
  whole_ne_nil : whole.val ≠ []
  fraction_ne_nil : ∀ digits ∈ fraction, digits.val ≠ []

structure Frequency where
  number : Decimal
  suffix : Suffix
  positive : 0 < number.value 10

namespace Frequency

def text (f : Frequency) : List Char := f.number.text ++ f.suffix.text

def hertz (f : Frequency) : ℚ := f.number.value 10 * f.suffix.multiplier

/-- A frequency that a `uint32_t` can hold and that is not below 1 Hz. -/
def Representable (f : Frequency) : Prop := 1 ≤ f.hertz ∧ f.hertz < 2 ^ 32

end Frequency

inductive FrequencyRange
  | single (f : Frequency)
  | range (start stop : Frequency)

namespace FrequencyRange

def text : FrequencyRange → List Char
  | single f => f.text
  | range start stop => start.text ++ '-' :: stop.text

def start : FrequencyRange → Frequency
  | single f => f
  | range start _ => start

def stop : FrequencyRange → Frequency
  | single f => f
  | range _ stop => stop

/-- A second frequency has no suffix. -/
def BareEnd : FrequencyRange → Prop
  | single _ => True
  | range _ stop => stop.suffix = .none

/-- What stands after the first frequency. -/
def rest : FrequencyRange → List Char
  | single _ => []
  | range _ stop => '-' :: stop.text

end FrequencyRange

/-- A decimal as the numeral that it is. -/
def Decimal.toNumeral (d : Decimal) : Numeral where
  space := ⟨[], by simp⟩
  minus := none
  body := .decimal d.toMantissa none

@[simp] theorem Decimal.text_toNumeral (d : Decimal) : d.toNumeral.text = d.text :=
  List.append_nil _

@[simp] theorem Decimal.value_toNumeral (d : Decimal) : d.toNumeral.value = .fin (d.value 10) := by
  simp [Numeral.value, toNumeral, Body.value, Exponent.valueOf]

/-- What the parser makes of the second frequency. -/
def FrequencyRange.ending : FrequencyRange → Ending
  | single _ => .none
  | range _ stop => .numeral stop.number.toNumeral

variable {a : Arithmetic}

/-! ### Texts have one reading -/

theorem stops_nil : Stops [] := by
  rintro c ⟨⟩

theorem numeral_append_inj {n n' : Numeral} {r r' : List Char} (hr : Stops r) (hr' : Stops r')
    (h : n.text ++ r = n'.text ++ r') : n = n' ∧ r = r' := by
  have hscan : some (n, r) = some (n', r') := by
    rw [← scan_append n hr, h, scan_append n' hr']
  exact Prod.mk.inj (Option.some.inj hscan)

theorem numeral_text_inj {n n' : Numeral} (h : n.text = n'.text) : n = n' := by
  have happend : n.text ++ [] = n'.text ++ [] := by rw [h]
  exact (numeral_append_inj stops_nil stops_nil happend).1

theorem frequency_append_inj {n n' : Numeral} {s s' : Suffix} {r r' : List Char}
    (hr : EndsFrequency r) (hr' : EndsFrequency r')
    (h : n.text ++ (s.text ++ r) = n'.text ++ (s'.text ++ r')) : n = n' ∧ s = s' ∧ r = r' := by
  obtain ⟨hn, hrest⟩ := numeral_append_inj (stops_suffix s hr) (stops_suffix s' hr') h
  exact ⟨hn, suffix_text_inj hr hr' hrest⟩

namespace FrequencyRange

theorem endsFrequency_rest (range : FrequencyRange) : EndsFrequency range.rest := by
  cases range with
  | single f => exact Or.inl rfl
  | range start stop => exact Or.inr ⟨stop.text, rfl⟩

theorem text_eq (range : FrequencyRange) :
    range.text = range.start.number.toNumeral.text ++ (range.start.suffix.text ++ range.rest) := by
  cases range with
  | single f =>
      rw [text, start, rest, Frequency.text, Decimal.text_toNumeral, List.append_nil]
  | range start stop =>
      rw [text, FrequencyRange.start, rest, Frequency.text, Decimal.text_toNumeral,
        List.append_assoc]

/-- The parser can read what follows the first frequency only if it has no
suffix. -/
theorem ending_text_eq_rest_iff (range : FrequencyRange) (ending : Ending) :
    ending.text = range.rest ↔ range.BareEnd ∧ ending = range.ending := by
  constructor
  · intro h
    cases range with
    | single f =>
        cases ending with
        | none => exact ⟨trivial, rfl⟩
        | missing => cases h
        | numeral n => cases h
    | range start stop =>
        cases ending with
        | none => cases h
        | missing =>
            -- A decimal has at least one digit.
            obtain ⟨c, cs, hcons, -⟩ := stop.number.toMantissa.exists_cons
            have hnil : [] = stop.text := (List.cons.inj h).2
            rw [Frequency.text, hcons] at hnil
            cases hnil
        | numeral n =>
            have htext : n.text ++ ([] ++ []) =
                stop.number.toNumeral.text ++ (stop.suffix.text ++ []) := by
              rw [List.append_nil, List.append_nil, List.append_nil, Decimal.text_toNumeral]
              exact (List.cons.inj h).2
            obtain ⟨rfl, hsuffix, -⟩ := frequency_append_inj (s := .none) (Or.inl rfl) (Or.inl rfl)
              htext
            exact ⟨hsuffix.symm, rfl⟩
  · rintro ⟨hbare, rfl⟩
    cases range with
    | single f => rfl
    | range start stop =>
        have hsuffix : stop.suffix = .none := hbare
        rw [ending, Ending.text, rest, Frequency.text, hsuffix, Decimal.text_toNumeral, Suffix.text,
          List.append_nil]

end FrequencyRange

/-! ### Reading the documented texts -/

theorem Exact.float (ha : Exact a) (n : Numeral) : a.float n = n.value :=
  Value.bind_fin ha.round n.value

theorem Exact.suffix_apply (ha : Exact a) (s : Suffix) (q : ℚ) :
    s.apply a (.fin q) = .fin (q * s.multiplier) := by
  cases s with
  | none => rw [Suffix.apply, Suffix.multiplier, mul_one]
  | k =>
      have hthousand : (10 : ℚ) ^ 3 = 1000 := by norm_num
      rw [Suffix.apply, Value.bind, ha.round, Suffix.multiplier, hthousand]
  | M =>
      have hmillion : (10 : ℚ) ^ 6 = 1000000 := by norm_num
      rw [Suffix.apply, Value.bind, ha.round, Suffix.multiplier, hmillion]

@[simp] theorem isNegative_fin {q : ℚ} : (Value.fin q).isNegative = false ↔ 0 ≤ q := by
  rw [Value.isNegative, decide_eq_false_iff_not, not_lt]

@[simp] theorem isZero_fin {q : ℚ} : (Value.fin q).isZero = false ↔ q ≠ 0 := by
  rw [Value.isZero, decide_eq_false_iff_not]

@[simp] theorem startable_fin {q : ℚ} : Startable (.fin q) ↔ 0 < q := by
  rw [Startable, isNegative_fin, isZero_fin, lt_iff_le_and_ne, ne_comm]

theorem Exact.toUInt32_hertz (ha : Exact a) {f : Frequency} (hf : f.Representable) :
    a.toUInt32 (.fin f.hertz) = ⌊f.hertz⌋.toNat :=
  ha.toUInt32 _ (zero_le_one.trans hf.1) hf.2

theorem Exact.float_decimal (ha : Exact a) (d : Decimal) :
    a.float d.toNumeral = .fin (d.value 10) := by
  rw [ha.float, Decimal.value_toNumeral]

/-- The first frequency passes, and its number becomes its hertz. -/
theorem Exact.suffix_apply_frequency (ha : Exact a) (f : Frequency) :
    f.suffix.apply a (a.float f.number.toNumeral) = .fin f.hertz := by
  rw [ha.float_decimal, ha.suffix_apply, Frequency.hertz]

theorem Exact.startable_frequency (ha : Exact a) (f : Frequency) :
    Startable (a.float f.number.toNumeral) := by
  rw [ha.float_decimal, startable_fin]
  exact f.positive

/-- What is stored for a documented text, if it is accepted. -/
theorem frequencyRange_text (ha : Exact a) {range : FrequencyRange} (hbare : range.BareEnd) :
    frequencyRange a range.text = some (.fin range.start.hertz, .fin range.stop.hertz) := by
  have hending : range.ending.NotNegative a := by
    cases range with
    | single f => trivial
    | range start stop => exact (ha.startable_frequency stop).1
  have hrest := (range.ending_text_eq_rest_iff range.ending).mpr ⟨hbare, rfl⟩
  rw [range.text_eq, ← hrest, frequencyRange_append (ha.startable_frequency _) _ hending,
    ha.suffix_apply_frequency]
  cases range with
  | single f => rfl
  | range start stop =>
      have hsuffix : stop.suffix = .none := hbare
      have hstop := ha.suffix_apply_frequency stop
      rw [hsuffix] at hstop
      rw [FrequencyRange.ending, Ending.value]
      exact congrArg some (Prod.ext rfl hstop)

theorem bareEnd_of_isSome {range : FrequencyRange} (h : (frequencyRange a range.text).isSome) :
    range.BareEnd := by
  obtain ⟨n, s, ending, htext, -, -⟩ := (frequencyRange_isSome_iff a range.text).mp h
  rw [range.text_eq] at htext
  obtain ⟨-, -, hrest⟩ := frequency_append_inj range.endsFrequency_rest ending.endsFrequency htext
  exact ((range.ending_text_eq_rest_iff ending).mp hrest.symm).1

/-- **The round trip of the documented syntax.** It succeeds unless a second
frequency has a suffix: the parser never applies that one. -/
theorem sanitizeFrequencyRange_text_iff (ha : Exact a) (range : FrequencyRange)
    (hstart : range.start.Representable) (hstop : range.stop.Representable) (input : ProgramInput) :
    sanitizeFrequencyRange a range.text input =
        some { input with
          freqStart := ⌊range.start.hertz⌋.toNat, freqEnd := ⌊range.stop.hertz⌋.toNat } ↔
      range.BareEnd := by
  constructor
  · intro h
    apply bareEnd_of_isSome (a := a)
    have hsome := congrArg Option.isSome h
    rwa [sanitizeFrequencyRange, Option.isSome_map] at hsome
  · intro hbare
    rw [sanitizeFrequencyRange, frequencyRange_text ha hbare, Option.map_some]
    dsimp only
    rw [ha.toUInt32_hertz hstart, ha.toUInt32_hertz hstop]

/-- `112.6M`. -/
def lowFrequency : Frequency where
  number :=
    { whole := ⟨['1', '1', '2'], List.all_eq_true.mp rfl⟩
      fraction := some ⟨['6'], List.all_eq_true.mp rfl⟩
      nonempty := by decide
      whole_ne_nil := by decide
      fraction_ne_nil := by decide }
  suffix := .M
  positive := by decide +kernel

/-- `136.5`, with a suffix. -/
def highFrequency (s : Suffix) : Frequency where
  number :=
    { whole := ⟨['1', '3', '6'], List.all_eq_true.mp rfl⟩
      fraction := some ⟨['5'], List.all_eq_true.mp rfl⟩
      nonempty := by decide
      whole_ne_nil := by decide
      fraction_ne_nil := by decide }
  suffix := s
  positive := by decide +kernel

theorem representable_lowFrequency : lowFrequency.Representable := by
  unfold Frequency.Representable
  decide +kernel

theorem representable_highFrequency (s : Suffix) : (highFrequency s).Representable := by
  unfold Frequency.Representable
  cases s <;> decide +kernel

theorem sanitizeFrequencyRange_text_iff_bare :
    sanitizeFrequencyRange exactArithmetic "112.6M-136.5".toList defaultProgramInput =
      some { defaultProgramInput with freqStart := 112600000, freqEnd := 136 } := by
  have hlow : ⌊lowFrequency.hertz⌋.toNat = 112600000 := by decide +kernel
  have hhigh : ⌊(highFrequency .none).hertz⌋.toNat = 136 := by decide +kernel
  rw [← hlow, ← hhigh]
  exact (sanitizeFrequencyRange_text_iff exact_exactArithmetic
    (.range lowFrequency (highFrequency .none)) representable_lowFrequency
    (representable_highFrequency .none) defaultProgramInput).mpr rfl

theorem sanitizeFrequencyRange_suffixed_end :
    lowFrequency.Representable ∧ (highFrequency .M).Representable ∧
      (FrequencyRange.range lowFrequency (highFrequency .M)).text = "112.6M-136.5M".toList ∧
      sanitizeFrequencyRange exactArithmetic "112.6M-136.5M".toList defaultProgramInput = none :=
  ⟨representable_lowFrequency, representable_highFrequency .M, by decide, by decide +kernel⟩

/-! ### What else is accepted -/

/-- The text of a decimal. -/
def Plain (l : List Char) : Prop := ∃ d : Decimal, l = d.text

/-- An end that the parser lets through although the syntax has no such end. -/
def Ending.Slips : Ending → Prop
  | .none => False
  | .missing => True
  | .numeral n => ¬ Plain n.text ∨ n.value.isZero = true

/-- The texts that slip through: a start which is no plain decimal, or such an
end. -/
def Slips (a : Arithmetic) (l : List Char) : Prop :=
  ∃ (n : Numeral) (s : Suffix) (ending : Ending), l = n.text ++ (s.text ++ ending.text) ∧
    Startable (a.float n) ∧ ending.NotNegative a ∧ (¬ Plain n.text ∨ ending.Slips)

theorem plain_text (f : Frequency) : Plain f.number.toNumeral.text :=
  ⟨f.number, f.number.text_toNumeral⟩

/-- The end of a documented range does not slip through. -/
theorem FrequencyRange.not_slips_ending (range : FrequencyRange) : ¬ range.ending.Slips := by
  cases range with
  | single f => exact id
  | range start stop =>
      rintro (hplain | hzero)
      · exact hplain (plain_text stop)
      · rw [Decimal.value_toNumeral] at hzero
        have hne : (Value.fin (stop.number.value 10)).isZero = false :=
          isZero_fin.mpr stop.positive.ne'
        rw [hne] at hzero
        cases hzero

theorem FrequencyRange.not_slips (range : FrequencyRange) : ¬ Slips a range.text := by
  rintro ⟨n, s, ending, htext, -, -, hslips⟩
  rw [range.text_eq] at htext
  obtain ⟨rfl, rfl, hrest⟩ :=
    frequency_append_inj range.endsFrequency_rest ending.endsFrequency htext
  obtain ⟨-, rfl⟩ := (range.ending_text_eq_rest_iff ending).mp hrest.symm
  obtain hplain | hend := hslips
  · exact hplain (plain_text range.start)
  · exact range.not_slips_ending hend

theorem Slips.accepted {l : List Char} (h : Slips a l) (input : ProgramInput) :
    (sanitizeFrequencyRange a l input).isSome ∧ ¬ ∃ range : FrequencyRange, l = range.text := by
  constructor
  · obtain ⟨n, s, ending, htext, hn, hending, -⟩ := h
    rw [sanitizeFrequencyRange, Option.isSome_map, frequencyRange_isSome_iff]
    exact ⟨n, s, ending, htext, hn, hending⟩
  · rintro ⟨range, rfl⟩
    exact range.not_slips h

/-- A plain start that passes is a frequency. -/
theorem exists_start (hzero : a.round 0 = .fin 0) {n : Numeral} (hn : Startable (a.float n))
    (hplain : Plain n.text) (s : Suffix) :
    ∃ f : Frequency, f.text = n.text ++ s.text := by
  obtain ⟨d, hd⟩ := hplain
  have hnumeral : n = d.toNumeral := numeral_text_inj (hd.trans d.text_toNumeral.symm)
  have hne : d.value 10 ≠ 0 := by
    intro heq
    have hfloat : a.float n = .fin 0 := by
      rw [hnumeral, Arithmetic.float, Decimal.value_toNumeral, Value.bind, heq, hzero]
    rw [hfloat] at hn
    exact absurd hn.2 (by decide)
  have hpositive : 0 < d.value 10 := (d.value_nonneg 10).lt_of_ne' hne
  exact ⟨⟨d, s, hpositive⟩, by rw [Frequency.text, hd]⟩

/-- A plain end that is not zero is a frequency. -/
theorem exists_stop {n : Numeral} (hslips : ¬ (Ending.numeral n).Slips) :
    ∃ f : Frequency, f.text = n.text := by
  obtain ⟨hplain, hzero⟩ := not_or.mp hslips
  obtain ⟨d, hd⟩ := not_not.mp hplain
  have hnumeral : n = d.toNumeral := numeral_text_inj (hd.trans d.text_toNumeral.symm)
  have hne : d.value 10 ≠ 0 := by
    rw [hnumeral, Decimal.value_toNumeral] at hzero
    exact isZero_fin.mp (Bool.eq_false_of_not_eq_true hzero)
  have hpositive : 0 < d.value 10 := (d.value_nonneg 10).lt_of_ne' hne
  refine ⟨⟨d, .none, hpositive⟩, ?_⟩
  rw [Frequency.text, hd]
  exact List.append_nil _

/-- **Rejection outside the syntax.** A text that is accepted is a documented
one unless it slips through. -/
theorem accepted_documented_iff (hzero : a.round 0 = .fin 0) (l : List Char)
    (input : ProgramInput) :
    ((sanitizeFrequencyRange a l input).isSome → ∃ range : FrequencyRange, l = range.text) ↔
      ¬ Slips a l := by
  constructor
  · intro h hslips
    obtain ⟨haccepted, htext⟩ := hslips.accepted input
    exact htext (h haccepted)
  · intro h hsome
    rw [sanitizeFrequencyRange, Option.isSome_map] at hsome
    obtain ⟨n, s, ending, rfl, hn, hending⟩ := (frequencyRange_isSome_iff a l).mp hsome
    have hslips : ¬ (¬ Plain n.text ∨ ending.Slips) := fun hor =>
      h ⟨n, s, ending, rfl, hn, hending, hor⟩
    obtain ⟨hplain, hend⟩ := not_or.mp hslips
    obtain ⟨start, hstart⟩ := exists_start hzero hn (not_not.mp hplain) s
    cases ending with
    | none =>
        refine ⟨.single start, ?_⟩
        rw [FrequencyRange.text, hstart]
        exact congrArg (n.text ++ ·) (List.append_nil _)
    | missing => exact absurd trivial hend
    | numeral m =>
        obtain ⟨stop, hstop⟩ := exists_stop hend
        refine ⟨.range start stop, ?_⟩
        rw [FrequencyRange.text, hstart, hstop, List.append_assoc]
        rfl

theorem accepted_documented_iff_range : ¬ Slips exactArithmetic "112.6M-136.5".toList :=
  (accepted_documented_iff rfl _ defaultProgramInput).mp fun _ =>
    ⟨.range lowFrequency (highFrequency .none), by decide⟩

/-- `105` with an exponent that may be missing. -/
def hundredFive (e : Option (Exponent isExponentMarker)) : Numeral where
  space := ⟨[], by simp⟩
  minus := none
  body := .decimal ⟨⟨['1', '0', '5'], List.all_eq_true.mp rfl⟩, none, by decide⟩ e

theorem slips_missing_end : Slips exactArithmetic "105-".toList := by
  refine ⟨hundredFive none, .none, .missing, by decide, ?_, trivial, Or.inr trivial⟩
  unfold Startable
  decide +kernel

theorem slips_exponent : Slips exactArithmetic "105e9".toList := by
  refine ⟨hundredFive (some ⟨'e', by decide, none, ⟨['9'], List.all_eq_true.mp rfl⟩,
    by decide⟩), .none, .none, by decide, ?_, trivial, Or.inl ?_⟩
  · unfold Startable
    decide +kernel
  · rintro ⟨d, hd⟩
    have hnumeral := numeral_text_inj (hd.trans d.text_toNumeral.symm)
    obtain ⟨-, hexponent⟩ := Body.decimal.inj (congrArg Numeral.body hnumeral)
    cases hexponent

theorem accepted_undocumented :
    ((sanitizeFrequencyRange exactArithmetic "105-".toList defaultProgramInput).isSome ∧
      ¬ ∃ range : FrequencyRange, "105-".toList = range.text) ∧
    ((sanitizeFrequencyRange exactArithmetic "105e9".toList defaultProgramInput).isSome ∧
      ¬ ∃ range : FrequencyRange, "105e9".toList = range.text) :=
  ⟨slips_missing_end.accepted defaultProgramInput, slips_exponent.accepted defaultProgramInput⟩

end RadioChatter.Input
