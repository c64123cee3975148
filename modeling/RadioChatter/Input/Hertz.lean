import RadioChatter.Input.RangeSyntax

/-!
The conversion of the two frequencies of a range to `uint32_t`.

The only numbers that `sanitize_frequency_range` turns away are zero and the
negative ones, and it does so before the suffix is applied. What is left can
still be too small or too large for a `uint32_t` of hertz.
-/

namespace RadioChatter.Input

open C99

/-- A number of hertz that a `uint32_t` can hold, and not zero. -/
def InHertz : Value → Prop
  | .fin q => 1 ≤ q ∧ q < 2 ^ 32
  | _ => False

instance : DecidablePred InHertz
  | .fin q => inferInstanceAs (Decidable (1 ≤ q ∧ q < 2 ^ 32))
  | .inf _ => isFalse id
  | .nan => isFalse id

/-- If the text is accepted, both conversions are defined and neither yields 0. -/
def Converts (a : Arithmetic) (l : List Char) (input : ProgramInput) : Prop :=
  ∀ startVal endVal, frequencyRange a l = some (startVal, endVal) →
    (InHertz startVal ∧ InHertz endVal) ∧ ∃ input', sanitizeFrequencyRange a l input = some input' ∧
      0 < input'.freqStart ∧ 0 < input'.freqEnd

/-- A value with its suffix. -/
def Suffix.scale (s : Suffix) : Value → Value
  | .fin q => .fin (q * s.multiplier)
  | v => v

/-- The values that slip through: too small, too large, infinite, or no number. -/
inductive Unfit : Value → Prop
  | small (q : ℚ) (h : q < 1) : Unfit (.fin q)
  | large (q : ℚ) (h : 2 ^ 32 ≤ q) : Unfit (.fin q)
  | infinite (negative : Bool) : Unfit (.inf negative)
  | nan : Unfit .nan

/-- An end that is missing behind its minus sign, or unfit. -/
def Ending.Stray : Ending → Prop
  | .none => False
  | .missing => True
  | .numeral n => Unfit n.value

/-- The texts of a start that is positive but, with its suffix, unfit, or of a
stray end. -/
def Stray (l : List Char) : Prop :=
  ∃ (n : Numeral) (s : Suffix) (ending : Ending), l = n.text ++ (s.text ++ ending.text) ∧
    Startable n.value ∧ (∀ m, ending = .numeral m → m.value.isNegative = false) ∧
    (Unfit (s.scale n.value) ∨ ending.Stray)

theorem unfit_iff (v : Value) : Unfit v ↔ ¬ InHertz v := by
  cases v with
  | fin q =>
      constructor
      · rintro hunfit ⟨hone, hlt⟩
        cases hunfit with
        | small _ hsmall => exact absurd hone (not_le.mpr hsmall)
        | large _ hlarge => exact absurd hlt (not_lt.mpr hlarge)
      · intro h
        by_cases hone : 1 ≤ q
        · exact .large q (not_lt.mp fun hlt => h ⟨hone, hlt⟩)
        · exact .small q (not_le.mp hone)
  | inf negative => exact iff_of_true (.infinite negative) id
  | nan => exact iff_of_true .nan id

variable {a : Arithmetic}

theorem Exact.suffix_apply_eq_scale (ha : Exact a) (s : Suffix) (v : Value) :
    s.apply a v = s.scale v := by
  cases v with
  | fin q => exact ha.suffix_apply s q
  | inf negative => cases s <;> rfl
  | nan => cases s <;> rfl

theorem Exact.notNegative_iff (ha : Exact a) (ending : Ending) :
    ending.NotNegative a ↔ ∀ m, ending = .numeral m → m.value.isNegative = false := by
  cases ending with
  | none => simp [Ending.NotNegative]
  | missing => simp [Ending.NotNegative]
  | numeral n => simp [Ending.NotNegative, ha.float]

/-- A value in range is converted to a positive number. -/
theorem Exact.toUInt32_pos (ha : Exact a) {v : Value} (hv : InHertz v) : 0 < a.toUInt32 v := by
  cases v with
  | fin q =>
      obtain ⟨hone, hlt⟩ := hv
      rw [ha.toUInt32 q (zero_le_one.trans hone) hlt]
      have hfloor : 1 ≤ ⌊q⌋ := Int.le_floor.mpr (by exact_mod_cast hone)
      omega
  | inf negative => exact hv.elim
  | nan => exact hv.elim

theorem Exact.converts_of_inHertz (ha : Exact a) {l : List Char} {input : ProgramInput}
    (h : ∀ v w, frequencyRange a l = some (v, w) → InHertz v ∧ InHertz w) :
    Converts a l input := by
  intro v w hvw
  obtain ⟨hv, hw⟩ := h v w hvw
  refine ⟨⟨hv, hw⟩, ?_⟩
  rw [sanitizeFrequencyRange, hvw]
  exact ⟨_, rfl, ha.toUInt32_pos hv, ha.toUInt32_pos hw⟩

/-- The end that is stored is in range exactly when the start is, or the end
that is there. -/
theorem Exact.inHertz_value_iff (ha : Exact a) {v : Value} (ending : Ending) :
    InHertz v ∧ InHertz (ending.value a v) ↔ InHertz v ∧ ¬ ending.Stray := by
  cases ending with
  | none => simp [Ending.value, Ending.Stray]
  | missing => simp [Ending.value, Ending.Stray, InHertz]
  | numeral n => simp [Ending.value, Ending.Stray, unfit_iff, ha.float]

/-- **Conversion to hertz.** It is defined and not zero for what is accepted,
except for the texts with a frequency below 1 Hz or beyond a `uint32_t`. -/
theorem converts_iff (ha : Exact a) (l : List Char) (input : ProgramInput) :
    Converts a l input ↔ ¬ Stray l := by
  constructor
  · rintro h ⟨n, s, ending, rfl, hn, hending, hstray⟩
    have hn' : Startable (a.float n) := by rwa [ha.float]
    have hvalues := frequencyRange_append hn' s ((ha.notNegative_iff ending).mpr hending)
    have hboth := (ha.inHertz_value_iff ending).mp (h _ _ hvalues).1
    rw [ha.float, ha.suffix_apply_eq_scale] at hboth
    obtain hstart | hend := hstray
    · exact (unfit_iff _).mp hstart hboth.1
    · exact hboth.2 hend
  · intro h
    apply ha.converts_of_inHertz
    intro v w hvw
    obtain ⟨n, s, ending, rfl, hn, hending⟩ :=
      (frequencyRange_isSome_iff a l).mp (Option.isSome_iff_exists.mpr ⟨_, hvw⟩)
    rw [frequencyRange_append hn s hending] at hvw
    obtain ⟨rfl, rfl⟩ := Prod.mk.inj (Option.some.inj hvw)
    rw [ha.inHertz_value_iff, ha.float, ha.suffix_apply_eq_scale]
    rw [ha.float] at hn
    have hor := fun hor => h ⟨n, s, ending, rfl, hn, (ha.notNegative_iff ending).mp hending, hor⟩
    exact ⟨not_not.mp fun hstart => hor (Or.inl ((unfit_iff _).mpr hstart)),
      fun hend => hor (Or.inr hend)⟩

theorem converts_iff_range : ¬ Stray "112.6M-136.5".toList := by
  refine (converts_iff exact_exactArithmetic _ defaultProgramInput).mp ?_
  intro v w hvw
  have hvalues : frequencyRange exactArithmetic "112.6M-136.5".toList =
      some (.fin 112600000, .fin (273 / 2)) := by
    decide +kernel
  obtain ⟨rfl, rfl⟩ := Prod.mk.inj (Option.some.inj (hvw.symm.trans hvalues))
  decide +kernel

/-- Below 1 Hz, beyond a `uint32_t`, infinite, and without an end. -/
theorem not_converts :
    (frequencyRange exactArithmetic "0.5".toList = some (.fin (1 / 2), .fin (1 / 2)) ∧
      ¬ Converts exactArithmetic "0.5".toList defaultProgramInput) ∧
    (frequencyRange exactArithmetic "5000M".toList = some (.fin 5000000000, .fin 5000000000) ∧
      ¬ Converts exactArithmetic "5000M".toList defaultProgramInput) ∧
    (frequencyRange exactArithmetic "INF".toList = some (.inf false, .inf false) ∧
      ¬ Converts exactArithmetic "INF".toList defaultProgramInput) ∧
    frequencyRange exactArithmetic "105-".toList = some (.fin 105, .fin 0) ∧
      ¬ Converts exactArithmetic "105-".toList defaultProgramInput := by
  have hnot : ∀ {l v w}, frequencyRange exactArithmetic l = some (v, w) →
      ¬ (InHertz v ∧ InHertz w) → ¬ Converts exactArithmetic l defaultProgramInput :=
    fun hvw hout h => hout (h _ _ hvw).1
  have hsmall : frequencyRange exactArithmetic "0.5".toList =
      some (.fin (1 / 2), .fin (1 / 2)) := by
    decide +kernel
  have hlarge : frequencyRange exactArithmetic "5000M".toList =
      some (.fin 5000000000, .fin 5000000000) := by
    decide +kernel
  have hinf : frequencyRange exactArithmetic "INF".toList = some (.inf false, .inf false) := by
    decide +kernel
  have hmissing : frequencyRange exactArithmetic "105-".toList = some (.fin 105, .fin 0) := by
    decide +kernel
  exact ⟨⟨hsmall, hnot hsmall (by decide +kernel)⟩, ⟨hlarge, hnot hlarge (by decide +kernel)⟩,
    ⟨hinf, hnot hinf (by decide +kernel)⟩, hmissing, hnot hmissing (by decide +kernel)⟩

end RadioChatter.Input
