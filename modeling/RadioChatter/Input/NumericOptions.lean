import RadioChatter.Input.ScanOptions

/-!
The numbers that the options of a scan are given.

An option has a positive decimal number as its argument, and the last one that
is given counts. `atoi` takes more than that, and the only value that the option
loop refuses is 0.
-/

namespace RadioChatter.Input

open C99 Getopt

/-! ### Arguments -/

/-- A text of digits whose value is positive and fits in an `int`. -/
def PositiveNumeral (arg : List Char) : Prop :=
  arg.all Char.isDigit = true ∧ 0 < digitsValue 10 arg ∧ digitsValue 10 arg < 2 ^ 31

instance : DecidablePred PositiveNumeral :=
  fun _ => inferInstanceAs (Decidable (_ ∧ _ ∧ _))

theorem atoi_of_positiveNumeral {arg : List Char} (h : PositiveNumeral arg) :
    atoi arg = digitsValue 10 arg := by
  obtain ⟨hall, hpos, hlt⟩ := h
  have hdigits : ∀ c ∈ arg, c.isDigit = true := List.all_eq_true.mp hall
  have hfirst : ∀ c ∈ arg.head?, isSpace c = false ∧ c ≠ '+' ∧ c ≠ '-' := by
    intro c hc
    exact not_sign_of_le_toNat (isDigit_bounds (hdigits c (List.mem_of_mem_head? hc))).1
  have hdrop : arg.dropWhile isSpace = arg := by
    cases arg with
    | nil => rfl
    | cons c cs =>
        have hspace := (hfirst c rfl).1
        exact List.dropWhile_cons_of_neg (by simp [hspace])
  have hsign : scanSign arg = (none, arg) :=
    scanSign_append none fun c hc => (hfirst c hc).2
  have htake : arg.takeWhile Char.isDigit = arg := List.takeWhile_eq_self_iff.mpr hdigits
  have hstrtol : strtol arg = digitsValue 10 arg := by
    unfold strtol
    simp only [hdrop, hsign, htake, reduceCtorEq, if_false]
    omega
  rw [atoi, hstrtol]
  exact CInt.wrap_of_lt (by omega) (by omega)

/-- The loop goes on after the option. -/
def Accepted : Event → Prop
  | .flag _ => True
  | .argument _ arg => atoi arg ≠ 0
  | .bad => False

instance : DecidablePred Accepted
  | .flag _ => isTrue trivial
  | .argument _ arg => inferInstanceAs (Decidable (atoi arg ≠ 0))
  | .bad => isFalse id

@[simp] theorem applyEvents_isSome_iff (input : ProgramInput) (events : List Event) :
    (applyEvents input events).isSome ↔ ∀ e ∈ events, Accepted e := by
  induction events generalizing input with
  | nil => simp [applyEvents]
  | cons e events ih =>
      rw [List.forall_mem_cons]
      cases e with
      | flag c => exact (ih input).trans (and_iff_right trivial).symm
      | argument c arg =>
          by_cases hzero : atoi arg = 0
          · simp [applyEvents, Accepted, hzero]
          · rw [applyEvents, if_neg hzero, ih]
            exact (and_iff_right hzero).symm
      | bad => simp [applyEvents, Accepted]

/-! ### The last occurrence -/

/-- The argument, if this is the option `c`. -/
def argumentOf (c : Char) : Event → Option (List Char)
  | .argument d arg => if d = c then some arg else none
  | _ => none

/-- The number that the last occurrence of the option `c` spells, or the default
if it does not occur. -/
def lastNumber (c : Char) (otherwise : ℤ) (events : List Event) : ℤ :=
  match (events.filterMap (argumentOf c)).getLast? with
  | some arg => digitsValue 10 arg
  | none => otherwise

/-- The field that belongs to an option with a number. -/
def ProgramInput.number (input : ProgramInput) (c : Char) : ℤ :=
  if c = 't' then input.timeout
  else if c = 'h' then input.holdTime
  else input.cycles

theorem ProgramInput.number_setNumber {c : Char} (hc : kindOf c = .argument)
    (input : ProgramInput) (d : Char) (n : ℤ) :
    (input.setNumber d n).number c = if d = c then n else input.number c := by
  by_cases hd : d = c
  · subst hd
    rw [if_pos rfl]
    obtain rfl | rfl | rfl := kindOf_eq_argument hc <;> rfl
  · rw [if_neg hd]
    unfold ProgramInput.setNumber
    obtain rfl | rfl | rfl := kindOf_eq_argument hc <;> split_ifs <;> rfl

theorem lastNumber_cons (c : Char) (otherwise : ℤ) (e : Event) (events : List Event) :
    lastNumber c otherwise (e :: events) =
      lastNumber c ((argumentOf c e).elim otherwise fun arg => digitsValue 10 arg) events := by
  unfold lastNumber
  cases harg : argumentOf c e with
  | none => rw [List.filterMap_cons_none harg, Option.elim_none]
  | some arg =>
      rw [List.filterMap_cons_some harg, List.getLast?_cons, Option.elim_some]
      cases (events.filterMap (argumentOf c)).getLast? <;> rfl

/-- Every argument that is given to an option is a numeral. -/
def Numerals (events : List Event) : Prop :=
  ∀ c arg, Event.argument c arg ∈ events → PositiveNumeral arg

theorem applyEvents_number {c : Char} (hc : kindOf c = .argument) {events : List Event}
    (hnumerals : Numerals events) {input input' : ProgramInput}
    (h : applyEvents input events = some input') :
    input'.number c = lastNumber c (input.number c) events := by
  induction events generalizing input with
  | nil =>
      obtain rfl := Option.some.inj h
      rfl
  | cons e events ih =>
      have hnext := @ih fun d arg hmem => hnumerals d arg (List.mem_cons_of_mem e hmem)
      rw [lastNumber_cons]
      cases e with
      | flag d => exact hnext h
      | argument d arg =>
          have hatoi := atoi_of_positiveNumeral (hnumerals d arg List.mem_cons_self)
          rw [applyEvents] at h
          split at h
          · cases h
          · rw [hnext h, ProgramInput.number_setNumber hc, hatoi, argumentOf]
            split <;> rfl
      | bad => cases h

/-! ### The numbers of a command line -/

/-- The input before the options are read, if the range and the mode of the
scan are accepted. -/
def scanInput (a : Arithmetic) : Argv → Option ProgramInput
  | _ :: subcommand :: range :: mode :: _ =>
      if subcommand = "scan".toList then do
        let input ← sanitizeFrequencyRange a range { defaultProgramInput with subcommand := .scan }
        match demodMode mode with
        | .ok (some mode) => some { input with demodMode := mode }
        | _ => none
      else none
  | _ => none

/-- What the call has read when it comes to the options. -/
structure Reads (a : Arithmetic) (argv : Argv) (input : ProgramInput) where
  name : List Char
  range : List Char
  mode : List Char
  args : Argv
  ranged : ProgramInput
  demod : DemodMode
  argv_eq : argv = name :: "scan".toList :: range :: mode :: args
  sanitize : sanitizeFrequencyRange a range { defaultProgramInput with subcommand := .scan } =
    some ranged
  demodMode : demodMode mode = .ok (some demod)
  input_eq : input = { ranged with demodMode := demod }

theorem reads_of_scanInput {a : Arithmetic} {argv : Argv} {input : ProgramInput}
    (h : scanInput a argv = some input) : Nonempty (Reads a argv input) := by
  unfold scanInput at h
  split at h
  next name subcommand range mode args =>
    split at h
    next hscan =>
      obtain ⟨ranged, hranged, h⟩ := Option.bind_eq_some_iff.mp h
      split at h
      next demod hdemod =>
        obtain rfl := Option.some.inj h
        exact ⟨⟨name, range, mode, args, ranged, demod, by rw [hscan], hranged, hdemod, rfl⟩⟩
      · cases h
    · cases h
  · cases h

/-- The call gets as far as the options. -/
theorem parse_of_reads {a : Arithmetic} {argv : Argv} {input : ProgramInput}
    (h : Reads a argv input) (posixlyCorrect : Bool) (s : State) :
    parseProgramInput a posixlyCorrect s argv = scanOptions posixlyCorrect s argv input := by
  obtain ⟨name, range, mode, args, ranged, demod, rfl, hranged, hdemod, rfl⟩ := h
  have hhelp : checkHelpCommand (name :: "scan".toList :: range :: mode :: args)
      defaultProgramInput = none := by
    simp [checkHelpCommand]
  unfold parseProgramInput
  rw [hhelp]
  simp only [checkScanCommand, hranged, hdemod, ne_eq, not_true, if_false]

/-- The call ends before the options, and `getopt` has no part in it. -/
theorem parse_of_not_scanInput {a : Arithmetic} {argv : Argv} (h : scanInput a argv = none)
    (hargv : argv ≠ []) :
    (∀ posixlyCorrect s, parseProgramInput a posixlyCorrect s argv =
      some (.ok (checkHelpCommand argv defaultProgramInput, s))) ∨
    ∃ fault, ∀ posixlyCorrect s, parseProgramInput a posixlyCorrect s argv =
      some (.error (.mode fault)) := by
  obtain _ | ⟨name, _ | ⟨subcommand, args⟩⟩ := argv
  · exact absurd rfl hargv
  · exact Or.inl fun _ _ => rfl
  unfold parseProgramInput
  cases hhelp : checkHelpCommand (name :: subcommand :: args) defaultProgramInput with
  | some input => exact Or.inl fun _ _ => rfl
  | none =>
      simp only [checkScanCommand]
      by_cases hscan : subcommand = "scan".toList
      · subst hscan
        simp only [ne_eq, not_true, if_false]
        obtain _ | ⟨range, _ | ⟨mode, rest⟩⟩ := args
        · exact Or.inl fun _ _ => rfl
        · exact Or.inl fun _ _ => rfl
        rw [scanInput, if_pos rfl] at h
        dsimp only
        cases hranged : sanitizeFrequencyRange a range
            { defaultProgramInput with subcommand := .scan } with
        | none => exact Or.inl fun _ _ => rfl
        | some ranged =>
            rw [hranged] at h
            cases hmode : demodMode mode with
            | error fault => exact Or.inr ⟨fault, fun _ _ => rfl⟩
            | ok result =>
                cases result with
                | none => exact Or.inl fun _ _ => rfl
                | some mode =>
                    simp only [hmode, bind, Option.bind_some] at h
                    cases h
      · exact Or.inl fun _ _ => if_pos hscan

/-- The range and the mode have no part in the numbers. -/
theorem Reads.number {a : Arithmetic} {argv : Argv} {input : ProgramInput} (h : Reads a argv input)
    (c : Char) : input.number c = defaultProgramInput.number c := by
  obtain ⟨value, -, hranged⟩ := Option.map_eq_some_iff.mp h.sanitize
  rw [h.input_eq, ← hranged]
  rfl

/-- A configuration is returned for numerals only, and it holds the last number
of each option, or the default. -/
def NumbersRead (events : List Event) : Outcome → Prop
  | .ok (some input, _) =>
      Numerals events ∧ input.timeout = lastNumber 't' 0 events ∧
        input.holdTime = lastNumber 'h' 3 events ∧ input.cycles = lastNumber 'c' 3 events
  | _ => True

/-- No argument has the value 0 for `atoi`, and one is not a numeral all the
same, in a scan that is accepted otherwise. -/
structure Misread (a : Arithmetic) (posixlyCorrect : Bool) (argv : Argv) : Prop where
  scan : (scanInput a argv).isSome
  accepted : ∀ e ∈ (optionsOf posixlyCorrect argv).events, Accepted e
  stray : ¬ Numerals (optionsOf posixlyCorrect argv).events

theorem Reads.numbersRead_iff_numerals {a : Arithmetic} {argv : Argv} {input input' : ProgramInput}
    (h : Reads a argv input) {events : List Event} (happly : applyEvents input events = some input')
    (g : State) : NumbersRead events (.ok (some input', g)) ↔ Numerals events := by
  constructor
  · exact fun hread => hread.1
  · intro hnumerals
    have hnumber : ∀ c, kindOf c = .argument →
        input'.number c = lastNumber c (defaultProgramInput.number c) events := by
      intro c hc
      rw [applyEvents_number hc hnumerals happly, h.number]
    exact ⟨hnumerals, hnumber 't' rfl, hnumber 'h' rfl, hnumber 'c' rfl⟩

/-- **The numbers of a scan** are read as they are spelled, unless an argument
that is no positive numeral has another value than 0 for `atoi`. -/
theorem numbersRead_iff (a : Arithmetic) (posixlyCorrect : Bool) (name : List Char) (args : Argv) :
    ∃ outcome,
      parseProgramInput a posixlyCorrect fresh (name :: "scan".toList :: args) = some outcome ∧
      (NumbersRead (optionsOf posixlyCorrect (name :: "scan".toList :: args)).events outcome ↔
        ¬ Misread a posixlyCorrect (name :: "scan".toList :: args)) := by
  cases hscan : scanInput a (name :: "scan".toList :: args) with
  | none =>
      have hnot : ¬ Misread a posixlyCorrect (name :: "scan".toList :: args) := by
        intro h
        have hsome := h.scan
        rw [hscan] at hsome
        cases hsome
      obtain hparse | ⟨fault, hparse⟩ := parse_of_not_scanInput hscan (List.cons_ne_nil _ _)
      · have hhelp :
            checkHelpCommand (name :: "scan".toList :: args) defaultProgramInput = none := by
          simp [checkHelpCommand]
        rw [hhelp] at hparse
        exact ⟨_, hparse posixlyCorrect fresh, iff_of_true trivial hnot⟩
      · exact ⟨_, hparse posixlyCorrect fresh, iff_of_true trivial hnot⟩
  | some input =>
      obtain ⟨hreads⟩ := reads_of_scanInput hscan
      obtain ⟨g, hrun⟩ := exists_scanOptions_fresh posixlyCorrect name args input
      refine ⟨_, (parse_of_reads hreads posixlyCorrect fresh).trans hrun, ?_⟩
      have haccepted := applyEvents_isSome_iff input
        (optionsOf posixlyCorrect (name :: "scan".toList :: args)).events
      cases happly : applyEvents input
          (optionsOf posixlyCorrect (name :: "scan".toList :: args)).events with
      | none =>
          rw [happly] at haccepted
          refine iff_of_true trivial fun h => ?_
          cases haccepted.mpr h.accepted
      | some input' =>
          rw [happly] at haccepted
          rw [hreads.numbersRead_iff_numerals happly g]
          constructor
          · exact fun hnumerals h => h.stray hnumerals
          · intro h
            by_contra hstray
            exact h ⟨by rw [hscan]; rfl, haccepted.mp rfl, hstray⟩

/-- The scan of a frequency with a timeout. -/
def timeoutLine (arg : List Char) : Argv :=
  ["rcs".toList, "scan".toList, "105".toList, "fm".toList, "-t".toList, arg]

theorem optionsOf_timeoutLine {arg : List Char} (h : condenseFlag arg = arg) :
    (optionsOf false (timeoutLine arg)).events = [.argument 't' arg] := by
  have hcondense : (condenseFlags (timeoutLine arg)).drop 2 =
      ["105".toList, "fm".toList, "-t".toList, arg] := by
    unfold timeoutLine condenseFlags
    simp only [List.map_cons, h]
    rfl
  have hcluster : scanFrom [] ["-t".toList, arg] = scanFrom ['t'] [arg] :=
    scanFrom_cluster (by decide) [arg]
  rw [optionsOf, hcondense, if_neg Bool.false_ne_true, scanFrom_nonoption rfl,
    scanFrom_nonoption rfl, hcluster, scanFrom_separate rfl, scanFrom_nil]
  rfl

/-- Whatever `atoi` makes of the argument is stored. -/
theorem parse_timeoutLine {arg : List Char} (hcondense : condenseFlag arg = arg)
    (hatoi : atoi arg ≠ 0) :
    ∃ input g, parseProgramInput exactArithmetic false fresh (timeoutLine arg) =
      some (.ok (some input, g)) ∧ input.timeout = atoi arg := by
  have hreads : Reads exactArithmetic (timeoutLine arg) { defaultProgramInput with
      subcommand := .scan, freqStart := 105, freqEnd := 105, demodMode := .fm } :=
    ⟨_, _, _, _, { defaultProgramInput with
      subcommand := .scan, freqStart := 105, freqEnd := 105 }, .fm, rfl, by decide +kernel,
      rfl, rfl⟩
  obtain ⟨g, hrun⟩ := exists_scanOptions_fresh false "rcs".toList
    ["105".toList, "fm".toList, "-t".toList, arg] { defaultProgramInput with
      subcommand := .scan, freqStart := 105, freqEnd := 105, demodMode := .fm }
  have hparse := (parse_of_reads hreads false fresh).trans hrun
  have hevents := optionsOf_timeoutLine hcondense
  rw [timeoutLine] at hevents
  rw [hevents, applyEvents, if_neg hatoi] at hparse
  exact ⟨_, g, hparse, rfl⟩

/-- The line is accepted with the timeout `n`, against the argument. -/
def MisreadAs (arg : List Char) (n : ℤ) : Prop :=
  ∃ input g, parseProgramInput exactArithmetic false fresh (timeoutLine arg) =
      some (.ok (some input, g)) ∧ input.timeout = n ∧
    ¬ NumbersRead (optionsOf false (timeoutLine arg)).events (.ok (some input, g))

theorem misreadAs {arg : List Char} {n : ℤ} (hcondense : condenseFlag arg = arg)
    (hatoi : atoi arg = n) (hn : n ≠ 0) (hnot : ¬ PositiveNumeral arg) : MisreadAs arg n := by
  subst hatoi
  obtain ⟨input, g, hparse, htimeout⟩ := parse_timeoutLine hcondense hn
  refine ⟨input, g, hparse, htimeout, fun hread => hnot (hread.1 't' arg ?_)⟩
  rw [optionsOf_timeoutLine hcondense]
  exact List.mem_singleton_self _

/-- A number with something behind it, a negative number, and a number that is
too large for an `int`. -/
theorem not_numbersRead :
    MisreadAs "5abc".toList 5 ∧ MisreadAs "-5".toList (-5) ∧
      MisreadAs "4294967297".toList 1 :=
  ⟨misreadAs (by decide) (by decide) (by decide) (by decide),
    misreadAs (by decide) (by decide) (by decide) (by decide),
    misreadAs (by decide) (by decide) (by decide) (by decide)⟩

end RadioChatter.Input
