import RadioChatter.Lib.NumeralScan

/-!
The frequency range of a command line, as `sanitize_frequency_range` reads it.

A C string is the list of its characters; where the source looks for the
terminating NUL, the list ends. How floats are rounded and how a float becomes
a `uint32_t` is given from outside.
-/

namespace RadioChatter.Input

open C99

inductive Subcommand
  | help
  | scan
  deriving DecidableEq, Repr

inductive DemodMode
  | fm
  | wbfm
  | am
  deriving DecidableEq, Repr

/-- `program_input_s`. -/
structure ProgramInput where
  subcommand : Subcommand
  demodMode : DemodMode
  verbose : Bool
  timeout : ℤ
  holdTime : ℤ
  cycles : ℤ
  freqStart : ℕ
  freqEnd : ℕ
  recency : ℤ
  deriving DecidableEq, Repr

/-- `default_program_input_s`. -/
def defaultProgramInput : ProgramInput where
  subcommand := .help
  demodMode := .fm
  verbose := false
  timeout := 0
  holdTime := 3
  cycles := 3
  freqStart := 0
  freqEnd := 0
  recency := 86400

/-- The rounding of `strtof` and of a product, and the conversion of a `float`
to `uint32_t`. -/
structure Arithmetic where
  round : ℚ → Value
  toUInt32 : Value → ℕ

/-- `strtof`: the value, and the rest of the text. Without a numeral the end
pointer stays where it was. -/
def strtof (a : Arithmetic) (nptr : List Char) : Value × List Char :=
  match C99.scan nptr with
  | some (n, endPtr) => (n.value.bind a.round, endPtr)
  | none => (.fin 0, nptr)

/-- `apply_frequency_suffix`: the new value and end pointer, or `false`. -/
def applyFrequencySuffix (a : Arithmetic) (val : Value) (endPtr : List Char) :
    Option (Value × List Char) :=
  -- Zero is also what `strtof` answers where there is no numeral.
  if val.isZero then none
  else
    match endPtr with
    | 'k' :: endPtr => some (val.bind fun q => a.round (q * 1000), endPtr)
    | 'M' :: endPtr => some (val.bind fun q => a.round (q * 1000000), endPtr)
    | endPtr => some (val, endPtr)

/-- The second half of `sanitize_frequency_range`, from the test that there is
no ending frequency. -/
def frequencyRangeEnd (a : Arithmetic) (startVal : Value) : List Char → Option (Value × Value)
  | [] => some (startVal, startVal)
  | '-' :: endPtr =>
      let (endVal, endPtr) := strtof a endPtr
      if endVal.isNegative then none
      else
        -- `(&end_val, &end_ptr)` calls nothing: it is the address of `end_ptr`.
        let freqSuffixResult := true
        if freqSuffixResult = false then none
        else
          match endPtr with
          | [] => some (startVal, endVal)
          | _ => none
  | _ => none

/-- `sanitize_frequency_range` up to its assignments: the values of
`start_val` and `end_val` that are stored. -/
def frequencyRange (a : Arithmetic) (freqRangeStr : List Char) : Option (Value × Value) := do
  let (startVal, endPtr) := strtof a freqRangeStr
  if startVal.isNegative then none
  else
    let (startVal, endPtr) ← applyFrequencySuffix a startVal endPtr
    frequencyRangeEnd a startVal endPtr

def sanitizeFrequencyRange (a : Arithmetic) (freqRangeStr : List Char) (input : ProgramInput) :
    Option ProgramInput :=
  (frequencyRange a freqRangeStr).map fun (startVal, endVal) =>
    { input with freqStart := a.toUInt32 startVal, freqEnd := a.toUInt32 endVal }

/-! ### Exact arithmetic -/

/-- Nothing is rounded, and a value in range is truncated. -/
structure Exact (a : Arithmetic) : Prop where
  round : ∀ q, a.round q = .fin q
  toUInt32 : ∀ q : ℚ, 0 ≤ q → q < 2 ^ 32 → a.toUInt32 (.fin q) = ⌊q⌋.toNat

/-- An exact arithmetic; what it makes of values out of range is arbitrary. -/
def exactArithmetic : Arithmetic where
  round := .fin
  toUInt32
    | .fin q => ⌊q⌋.toNat
    | _ => 0

theorem exact_exactArithmetic : Exact exactArithmetic where
  round _ := rfl
  toUInt32 _ _ _ := rfl

/-! ### The texts that are accepted -/

inductive Suffix
  | none
  | k
  | M
  deriving DecidableEq, Repr

def Suffix.text : Suffix → List Char
  | .none => []
  | .k => ['k']
  | .M => ['M']

def Suffix.multiplier : Suffix → ℚ
  | .none => 1
  | .k => 10 ^ 3
  | .M => 10 ^ 6

/-- What can stand after the start of a range. -/
inductive Ending
  | none
  | missing
  | numeral (n : Numeral)

def Ending.text : Ending → List Char
  | .none => []
  | .missing => ['-']
  | .numeral n => '-' :: n.text

/-- The `float` of a numeral. -/
def Arithmetic.float (a : Arithmetic) (n : Numeral) : Value := n.value.bind a.round

/-- The end of a range is not negative, as far as there is one. -/
def Ending.NotNegative (a : Arithmetic) : Ending → Prop
  | .numeral n => (a.float n).isNegative = false
  | _ => True

/-- A value that passes as the start of a range. -/
def Startable (v : Value) : Prop := v.isNegative = false ∧ v.isZero = false

/-- What follows a frequency. -/
def EndsFrequency (r : List Char) : Prop := r = [] ∨ ∃ r', r = '-' :: r'

theorem Ending.endsFrequency (ending : Ending) : EndsFrequency ending.text := by
  cases ending with
  | none => exact Or.inl rfl
  | missing => exact Or.inr ⟨[], rfl⟩
  | numeral n => exact Or.inr ⟨n.text, rfl⟩

theorem stops_suffix (s : Suffix) {r : List Char} (hr : EndsFrequency r) : Stops (s.text ++ r) := by
  intro c hc
  cases s with
  | none =>
      obtain rfl | ⟨r', rfl⟩ := hr
      · cases hc
      · obtain rfl := Option.some.inj hc
        decide
  | k =>
      obtain rfl := Option.some.inj hc
      decide
  | M =>
      obtain rfl := Option.some.inj hc
      decide

/-- The suffix of a frequency can be read off its text. -/
theorem suffix_text_inj {s s' : Suffix} {r r' : List Char} (hr : EndsFrequency r)
    (hr' : EndsFrequency r') (h : s.text ++ r = s'.text ++ r') : s = s' ∧ r = r' := by
  obtain rfl | ⟨t, rfl⟩ := hr <;> obtain rfl | ⟨t', rfl⟩ := hr' <;>
    cases s <;> cases s' <;> simp_all [Suffix.text]

variable {a : Arithmetic}

theorem strtof_append (a : Arithmetic) (n : Numeral) {r : List Char} (hr : Stops r) :
    strtof a (n.text ++ r) = (a.float n, r) := by
  rw [strtof, scan_append n hr]
  rfl

/-- The value that a suffix makes of another one. -/
def Suffix.apply (a : Arithmetic) (v : Value) : Suffix → Value
  | .none => v
  | .k => v.bind fun q => a.round (q * 1000)
  | .M => v.bind fun q => a.round (q * 1000000)

theorem applyFrequencySuffix_append {v : Value} (hv : v.isZero = false) (s : Suffix)
    {r : List Char} (hr : EndsFrequency r) :
    applyFrequencySuffix a v (s.text ++ r) = some (s.apply a v, r) := by
  cases s with
  | none =>
      obtain rfl | ⟨r', rfl⟩ := hr <;>
        simp [applyFrequencySuffix, hv, Suffix.text, Suffix.apply]
  | k => simp [applyFrequencySuffix, hv, Suffix.text, Suffix.apply]
  | M => simp [applyFrequencySuffix, hv, Suffix.text, Suffix.apply]

/-- The stored end of a range whose start is given. -/
def Ending.value (a : Arithmetic) (startVal : Value) : Ending → Value
  | .none => startVal
  | .missing => .fin 0
  | .numeral n => a.float n

/-- What is stored for an accepted text. -/
theorem frequencyRange_append {n : Numeral} (hn : Startable (a.float n)) (s : Suffix)
    {ending : Ending} (hending : ending.NotNegative a) :
    frequencyRange a (n.text ++ (s.text ++ ending.text)) =
      some (s.apply a (a.float n), ending.value a (s.apply a (a.float n))) := by
  have hstart : strtof a (n.text ++ (s.text ++ ending.text)) = (a.float n, s.text ++ ending.text) :=
    strtof_append a n (stops_suffix s ending.endsFrequency)
  have hsuffix := applyFrequencySuffix_append hn.2 s ending.endsFrequency (a := a)
  rw [frequencyRange, hstart]
  simp only [hn.1, hsuffix, Bool.false_eq_true, if_false, Option.bind_some, Option.bind_eq_bind]
  cases ending with
  | none => rfl
  | missing => rfl
  | numeral m =>
      have hend : strtof a m.text = (a.float m, []) := by
        have happend := strtof_append a m (r := []) (by rintro c ⟨⟩)
        rwa [List.append_nil] at happend
      have hneg : (a.float m).isNegative = false := hending
      simp [Ending.text, Ending.value, frequencyRangeEnd, hend, hneg]

/-- What `strtof` reads is a numeral at the front of the text, or nothing. -/
theorem strtof_cases (a : Arithmetic) (l : List Char) :
    (∃ (n : Numeral) (r : List Char), l = n.text ++ r ∧ strtof a l = (a.float n, r)) ∨
      strtof a l = (.fin 0, l) := by
  rw [strtof]
  cases hscan : C99.scan l with
  | none => exact Or.inr rfl
  | some nr =>
      obtain ⟨n, r⟩ := nr
      exact Or.inl ⟨n, r, (scan_text hscan).symm, rfl⟩

theorem applyFrequencySuffix_cases {v v' : Value} {l r : List Char}
    (h : applyFrequencySuffix a v l = some (v', r)) :
    v.isZero = false ∧ ∃ s : Suffix, l = s.text ++ r := by
  unfold applyFrequencySuffix at h
  split at h
  · cases h
  next hzero =>
    refine ⟨Bool.eq_false_of_not_eq_true hzero, ?_⟩
    split at h
    · obtain ⟨-, rfl⟩ := Prod.mk.inj (Option.some.inj h)
      exact ⟨.k, rfl⟩
    · obtain ⟨-, rfl⟩ := Prod.mk.inj (Option.some.inj h)
      exact ⟨.M, rfl⟩
    · obtain ⟨-, rfl⟩ := Prod.mk.inj (Option.some.inj h)
      exact ⟨.none, rfl⟩

/-- What follows the suffix of an accepted start. -/
theorem frequencyRangeEnd_cases {startVal : Value} {endPtr : List Char}
    {v : Value × Value} (h : frequencyRangeEnd a startVal endPtr = some v) :
    ∃ ending : Ending, endPtr = ending.text ∧ ending.NotNegative a := by
  unfold frequencyRangeEnd at h
  split at h
  · exact ⟨.none, rfl, trivial⟩
  next l =>
    obtain ⟨n, r, rfl, hend⟩ | hend := strtof_cases a l
    · rw [hend] at h
      dsimp only at h
      split at h
      · cases h
      next hneg =>
        rw [if_neg (by decide : ¬true = false)] at h
        split at h
        · exact ⟨.numeral n, by rw [List.append_nil]; rfl, Bool.eq_false_of_not_eq_true hneg⟩
        · cases h
    · -- Without a numeral the end pointer has to be at the end already.
      rw [hend] at h
      dsimp only at h
      split at h
      · cases h
      · rw [if_neg (by decide : ¬true = false)] at h
        split at h
        · exact ⟨.missing, rfl, trivial⟩
        · cases h
  · cases h

/-- **The accepted texts.** A numeral that is not negative and not zero, a
suffix, and perhaps a minus sign with nothing or with a numeral behind it. -/
theorem frequencyRange_isSome_iff (a : Arithmetic) (l : List Char) :
    (frequencyRange a l).isSome ↔
      ∃ (n : Numeral) (s : Suffix) (ending : Ending), l = n.text ++ (s.text ++ ending.text) ∧
        Startable (a.float n) ∧ ending.NotNegative a := by
  constructor
  · intro h
    obtain ⟨v, hv⟩ := Option.isSome_iff_exists.mp h
    rw [frequencyRange] at hv
    obtain ⟨n, r, rfl, hstart⟩ | hstart := strtof_cases a l
    · rw [hstart] at hv
      dsimp only at hv
      split at hv
      · cases hv
      next hneg =>
        obtain ⟨⟨startVal, endPtr⟩, hsuffix, hrest⟩ := Option.bind_eq_some_iff.mp hv
        obtain ⟨hzero, s, rfl⟩ := applyFrequencySuffix_cases hsuffix
        have hn : Startable (a.float n) := ⟨Bool.eq_false_of_not_eq_true hneg, hzero⟩
        obtain ⟨ending, rfl, hending⟩ := frequencyRangeEnd_cases hrest
        exact ⟨n, s, ending, rfl, hn, hending⟩
    · rw [hstart] at hv
      have hzero : applyFrequencySuffix a (.fin 0) l = none := rfl
      simp [hzero, Value.isNegative] at hv
  · rintro ⟨n, s, ending, rfl, hn, hending⟩
    rw [frequencyRange_append hn s hending]
    rfl

end RadioChatter.Input
