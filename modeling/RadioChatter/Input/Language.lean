import RadioChatter.Input.NumericOptions

/-!
The command lines that are accepted, and what becomes of the others.

A line is read once from left to right. Whether it is accepted, and with which
configuration, is then a matter of its text alone: the permutation of the
vector, the state of `getopt` and the buffer of the mode leave no trace, except
that a mode that is too long is undefined behaviour.
-/

namespace RadioChatter.Input

open C99 Getopt CString

/-- What the last occurrence of the option `c` is converted to, or the default if
it does not occur. -/
def lastValue (c : Char) (otherwise : ℤ) (events : List Event) : ℤ :=
  match (events.filterMap (argumentOf c)).getLast? with
  | some arg => atoi arg
  | none => otherwise

/-- The lines that ask for help: there is no subcommand, or it is `help`, with
nothing behind it. -/
def HelpLine (argv : Argv) : Prop :=
  argv.length = 1 ∨ argv.length = 2 ∧ argv[1]? = some "help".toList

instance : DecidablePred HelpLine := fun argv =>
  inferInstanceAs (Decidable (argv.length = 1 ∨ argv.length = 2 ∧ argv[1]? = some "help".toList))

/-- What a scan of these frequencies, in this mode and with these options asks for. -/
def configuration (a : Arithmetic) (startVal endVal : Value) (demod : DemodMode)
    (events : List Event) : ProgramInput :=
  { defaultProgramInput with
    subcommand := .scan
    demodMode := demod
    timeout := lastValue 't' 0 events
    holdTime := lastValue 'h' 3 events
    cycles := lastValue 'c' 3 events
    freqStart := a.toUInt32 startVal
    freqEnd := a.toUInt32 endVal }

/-- A scan with a range that is accepted, a mode in any case, and options of which
none is refused; and the configuration that it asks for. -/
def ScanLine (a : Arithmetic) (posixlyCorrect : Bool) (argv : Argv) (input : ProgramInput) : Prop :=
  ∃ (name range mode : List Char) (args : Argv) (startVal endVal : Value) (demod : DemodMode),
    argv = name :: "scan".toList :: range :: mode :: args ∧
    frequencyRange a range = some (startVal, endVal) ∧
    mode.map Char.toLower = demod.text ∧
    (∀ e ∈ (optionsOf posixlyCorrect argv).events, Accepted e) ∧
    input = configuration a startVal endVal demod (optionsOf posixlyCorrect argv).events

/-- A scan with a range that is accepted, and a mode that does not fit in its buffer. -/
def LongMode (a : Arithmetic) (argv : Argv) : Prop :=
  ∃ (name range mode : List Char) (args : Argv),
    argv = name :: "scan".toList :: range :: mode :: args ∧
    (frequencyRange a range).isSome ∧ largestDemodModeLen < mode.length

/-! ### The options -/

theorem lastValue_cons (c : Char) (otherwise : ℤ) (e : Event) (events : List Event) :
    lastValue c otherwise (e :: events) =
      lastValue c ((argumentOf c e).elim otherwise atoi) events := by
  unfold lastValue
  rw [List.filterMap_cons]
  cases argumentOf c e with
  | none => rfl
  | some arg =>
      rw [List.getLast?_cons]
      cases (events.filterMap (argumentOf c)).getLast? <;> rfl

/-- The options that are stored are the last ones. -/
theorem applyEvents_eq {events : List Event} (h : ∀ e ∈ events, Accepted e)
    (input : ProgramInput) :
    applyEvents input events = some { input with
      timeout := lastValue 't' input.timeout events
      holdTime := lastValue 'h' input.holdTime events
      cycles := lastValue 'c' input.cycles events } := by
  induction events generalizing input with
  | nil => rfl
  | cons e events ih =>
      obtain ⟨he, hevents⟩ := List.forall_mem_cons.mp h
      rw [lastValue_cons, lastValue_cons, lastValue_cons]
      cases e with
      | flag c => exact ih hevents input
      | bad => exact he.elim
      | argument c arg =>
          have hne : atoi arg ≠ 0 := he
          rw [applyEvents, if_neg hne, ih hevents]
          unfold ProgramInput.setNumber argumentOf
          by_cases ht : c = 't'
          · subst ht
            rfl
          by_cases hh : c = 'h'
          · subst hh
            rfl
          by_cases hc : c = 'c'
          · subst hc
            rfl
          simp [ht, hh, hc]

theorem applyEvents_eq_none {events : List Event} (h : ¬ ∀ e ∈ events, Accepted e)
    (input : ProgramInput) : applyEvents input events = none := by
  rw [← applyEvents_isSome_iff input] at h
  exact Option.not_isSome_iff_eq_none.mp h

/-! ### The mode -/

theorem demodMode_eq_some_iff {arg : List Char} (h : nul ∉ arg)
    (hlen : arg.length ≤ largestDemodModeLen) (mode : DemodMode) :
    demodMode arg = .ok (some mode) ↔ arg.map Char.toLower = mode.text := by
  rw [demodMode_of_le h hlen, Except.ok.injEq]
  split
  next hmode => cases mode <;> simp [hmode, DemodMode.text]
  · split
    next hmode => cases mode <;> simp [hmode, DemodMode.text]
    · split
      next hmode => cases mode <;> simp [hmode, DemodMode.text]
      · cases mode <;> simp_all

theorem length_text_le (mode : DemodMode) : mode.text.length ≤ largestDemodModeLen := by
  cases mode <;> decide

/-! ### The kinds of lines -/

section Lines

variable {a : Arithmetic} {posixlyCorrect : Bool} {argv : Argv}

theorem ScanLine.shape {input : ProgramInput} (h : ScanLine a posixlyCorrect argv input) :
    4 ≤ argv.length ∧ argv[1]? = some "scan".toList := by
  obtain ⟨name, range, mode, args, -, -, -, rfl, -⟩ := h
  exact ⟨by simp, rfl⟩

theorem LongMode.shape (h : LongMode a argv) :
    4 ≤ argv.length ∧ argv[1]? = some "scan".toList := by
  obtain ⟨name, range, mode, args, rfl, -⟩ := h
  exact ⟨by simp, rfl⟩

/-- What the outcome of a call says about its line. -/
def Tells (a : Arithmetic) (posixlyCorrect : Bool) (argv : Argv) (outcome : Outcome) : Prop :=
  (∀ input, (∃ g, outcome = .ok (some input, g)) ↔
    HelpLine argv ∧ input = defaultProgramInput ∨ ScanLine a posixlyCorrect argv input) ∧
  ((∃ fault, outcome = .error fault) ↔ LongMode a argv)

theorem tells_null (hhelp : ¬ HelpLine argv)
    (hscan : ∀ input, ¬ ScanLine a posixlyCorrect argv input) (hlong : ¬ LongMode a argv)
    (g : State) : Tells a posixlyCorrect argv (.ok (none, g)) := by
  constructor
  · intro input
    constructor
    · rintro ⟨g', heq⟩
      cases heq
    · rintro (⟨hhelp', -⟩ | hscan')
      · exact absurd hhelp' hhelp
      · exact absurd hscan' (hscan input)
  · constructor
    · rintro ⟨fault, heq⟩
      cases heq
    · exact fun hlong' => absurd hlong' hlong

theorem checkHelpCommand_eq (argv : Argv) :
    checkHelpCommand argv defaultProgramInput =
      if HelpLine argv then some defaultProgramInput else none := by
  unfold checkHelpCommand HelpLine
  by_cases hone : argv.length = 1
  · simp [hone, defaultProgramInput]
  · simp [hone, defaultProgramInput]

/-- A line that asks for help is too short for a scan. -/
theorem tells_help (hhelp : HelpLine argv) (g : State) :
    Tells a posixlyCorrect argv (.ok (some defaultProgramInput, g)) := by
  have hlt : ¬ 4 ≤ argv.length := by
    obtain hlen | ⟨hlen, -⟩ := hhelp <;> omega
  constructor
  · intro input
    constructor
    · rintro ⟨g', heq⟩
      cases heq
      exact Or.inl ⟨hhelp, rfl⟩
    · rintro (⟨-, rfl⟩ | hscan)
      · exact ⟨g, rfl⟩
      · exact absurd hscan.shape.1 hlt
  · constructor
    · rintro ⟨fault, heq⟩
      cases heq
    · exact fun hlong => absurd hlong.shape.1 hlt

theorem text_injective : Function.Injective DemodMode.text := by
  intro mode mode' h
  cases mode <;> cases mode' <;> first | rfl | exact absurd h (by decide)

/-- A line asks for one configuration. -/
theorem ScanLine.unique {input input' : ProgramInput} (h : ScanLine a posixlyCorrect argv input)
    (h' : ScanLine a posixlyCorrect argv input') : input' = input := by
  obtain ⟨name, range, mode, args, v, w, demod, rfl, hrange, hmode, -, rfl⟩ := h
  obtain ⟨name', range', mode', args', v', w', demod', heq, hrange', hmode', -, rfl⟩ := h'
  simp only [List.cons.injEq, true_and] at heq
  obtain ⟨rfl, rfl, rfl, rfl⟩ := heq
  obtain rfl : demod = demod' := text_injective (hmode.symm.trans hmode')
  rw [hrange] at hrange'
  cases hrange'
  rfl

theorem tells_scan {input : ProgramInput} (hscan : ScanLine a posixlyCorrect argv input)
    (hlong : ¬ LongMode a argv) (g : State) :
    Tells a posixlyCorrect argv (.ok (some input, g)) := by
  constructor
  · intro input'
    constructor
    · rintro ⟨g', heq⟩
      cases heq
      exact Or.inr hscan
    · rintro (⟨hhelp, -⟩ | hscan')
      · have hlen := hscan.shape.1
        obtain hone | ⟨htwo, -⟩ := hhelp <;> omega
      · rw [hscan.unique hscan']
        exact ⟨g, rfl⟩
  · constructor
    · rintro ⟨fault, heq⟩
      cases heq
    · exact fun hlong' => absurd hlong' hlong

theorem tells_fault (hlong : LongMode a argv)
    (hscan : ∀ input, ¬ ScanLine a posixlyCorrect argv input) (fault : ParseFault) :
    Tells a posixlyCorrect argv (.error fault) := by
  constructor
  · intro input
    constructor
    · rintro ⟨g, heq⟩
      cases heq
    · rintro (⟨hhelp, -⟩ | hscan')
      · have hlen := hlong.shape.1
        obtain hone | ⟨htwo, -⟩ := hhelp <;> omega
      · exact absurd hscan' (hscan input)
  · exact iff_of_true ⟨fault, rfl⟩ hlong

end Lines

/-! ### A line with a range and a mode -/

section Scan

variable (a : Arithmetic) (posixlyCorrect : Bool) (name range mode : List Char) (args : Argv)

theorem scanLine_cons_iff (input : ProgramInput) :
    ScanLine a posixlyCorrect (name :: "scan".toList :: range :: mode :: args) input ↔
      ∃ startVal endVal demod, frequencyRange a range = some (startVal, endVal) ∧
        mode.map Char.toLower = demod.text ∧
        (∀ e ∈ (optionsOf posixlyCorrect
          (name :: "scan".toList :: range :: mode :: args)).events, Accepted e) ∧
        input = configuration a startVal endVal demod
          (optionsOf posixlyCorrect (name :: "scan".toList :: range :: mode :: args)).events := by
  constructor
  · rintro ⟨name', range', mode', args', startVal, endVal, demod, heq, hscan⟩
    simp only [List.cons.injEq, true_and] at heq
    obtain ⟨rfl, rfl, rfl, rfl⟩ := heq
    exact ⟨startVal, endVal, demod, hscan⟩
  · rintro ⟨startVal, endVal, demod, hscan⟩
    exact ⟨name, range, mode, args, startVal, endVal, demod, rfl, hscan⟩

theorem longMode_cons_iff :
    LongMode a (name :: "scan".toList :: range :: mode :: args) ↔
      (frequencyRange a range).isSome ∧ largestDemodModeLen < mode.length := by
  constructor
  · rintro ⟨name', range', mode', args', heq, hlong⟩
    simp only [List.cons.injEq, true_and] at heq
    obtain ⟨rfl, rfl, rfl, rfl⟩ := heq
    exact hlong
  · exact fun hlong => ⟨name, range, mode, args, rfl, hlong⟩

theorem parse_scan :
    parseProgramInput a posixlyCorrect fresh (name :: "scan".toList :: range :: mode :: args) =
      match frequencyRange a range with
      | none => some (.ok (none, fresh))
      | some (startVal, endVal) =>
          match demodMode mode with
          | .error fault => some (.error (.mode fault))
          | .ok none => some (.ok (none, fresh))
          | .ok (some demod) =>
              scanOptions posixlyCorrect fresh (name :: "scan".toList :: range :: mode :: args)
                (configuration a startVal endVal demod []) := by
  have hhelp : checkHelpCommand (name :: "scan".toList :: range :: mode :: args)
      defaultProgramInput = none := by
    simp [checkHelpCommand]
  rw [parseProgramInput, hhelp]
  simp only [checkScanCommand, ne_eq, not_true, if_false, sanitizeFrequencyRange]
  cases frequencyRange a range with
  | none => rfl
  | some values => rfl

theorem applyEvents_configuration {events : List Event} (h : ∀ e ∈ events, Accepted e)
    (startVal endVal : Value) (demod : DemodMode) :
    applyEvents (configuration a startVal endVal demod []) events =
      some (configuration a startVal endVal demod events) := by
  rw [applyEvents_eq h]
  rfl

theorem not_helpLine_cons :
    ¬ HelpLine (name :: "scan".toList :: range :: mode :: args) := by
  rintro (hlen | ⟨hlen, -⟩) <;> simp at hlen

variable {range}

theorem tells_range_none (hrange : frequencyRange a range = none) :
    Tells a posixlyCorrect (name :: "scan".toList :: range :: mode :: args)
      (.ok (none, fresh)) := by
  apply tells_null (not_helpLine_cons name range mode args)
  · intro input hscan
    obtain ⟨startVal, endVal, demod, hsome, -⟩ := (scanLine_cons_iff ..).mp hscan
    rw [hrange] at hsome
    cases hsome
  · intro hlong
    have hsome := ((longMode_cons_iff ..).mp hlong).1
    rw [hrange] at hsome
    cases hsome

variable {mode}

theorem tells_mode_long {startVal endVal : Value}
    (hrange : frequencyRange a range = some (startVal, endVal))
    (hlen : largestDemodModeLen < mode.length) (fault : ParseFault) :
    Tells a posixlyCorrect (name :: "scan".toList :: range :: mode :: args) (.error fault) := by
  apply tells_fault
  · rw [longMode_cons_iff, hrange]
    exact ⟨rfl, hlen⟩
  · intro input hscan
    obtain ⟨-, -, demod, -, htext, -⟩ := (scanLine_cons_iff ..).mp hscan
    have hle := length_text_le demod
    rw [← htext, List.length_map] at hle
    exact absurd hlen (not_lt.mpr hle)

theorem not_longMode_cons (hlen : mode.length ≤ largestDemodModeLen) :
    ¬ LongMode a (name :: "scan".toList :: range :: mode :: args) :=
  fun hlong => absurd ((longMode_cons_iff ..).mp hlong).2 (not_lt.mpr hlen)

theorem tells_mode_none (hnul : nul ∉ mode) (hlen : mode.length ≤ largestDemodModeLen)
    (hmode : demodMode mode = .ok none) :
    Tells a posixlyCorrect (name :: "scan".toList :: range :: mode :: args)
      (.ok (none, fresh)) := by
  apply tells_null (not_helpLine_cons name range mode args) _
    (not_longMode_cons a name args hlen)
  intro input hscan
  obtain ⟨-, -, demod, -, htext, -⟩ := (scanLine_cons_iff ..).mp hscan
  rw [(demodMode_eq_some_iff hnul hlen demod).mpr htext] at hmode
  cases hmode

/-- With a range and a mode, the options decide. -/
theorem exists_tells_options {startVal endVal : Value} {demod : DemodMode}
    (hrange : frequencyRange a range = some (startVal, endVal))
    (hmode : mode.map Char.toLower = demod.text) (hlen : mode.length ≤ largestDemodModeLen) :
    ∃ outcome, scanOptions posixlyCorrect fresh (name :: "scan".toList :: range :: mode :: args)
        (configuration a startVal endVal demod []) = some outcome ∧
      Tells a posixlyCorrect (name :: "scan".toList :: range :: mode :: args) outcome := by
  have hlong : ¬ LongMode a (name :: "scan".toList :: range :: mode :: args) :=
    not_longMode_cons a name args hlen
  obtain ⟨g, hrun⟩ := exists_scanOptions_fresh posixlyCorrect name (range :: mode :: args)
    (configuration a startVal endVal demod [])
  refine ⟨_, hrun, ?_⟩
  by_cases haccepted : ∀ e ∈ (optionsOf posixlyCorrect
      (name :: "scan".toList :: range :: mode :: args)).events, Accepted e
  · rw [applyEvents_configuration a haccepted]
    apply tells_scan _ hlong
    rw [scanLine_cons_iff]
    exact ⟨startVal, endVal, demod, hrange, hmode, haccepted, rfl⟩
  · rw [applyEvents_eq_none haccepted]
    apply tells_null (not_helpLine_cons name range mode args) _ hlong
    intro input hscan
    obtain ⟨-, -, -, -, -, haccepted', -⟩ := (scanLine_cons_iff ..).mp hscan
    exact haccepted haccepted'

theorem exists_tells_scan (hnul : nul ∉ mode) :
    ∃ outcome, parseProgramInput a posixlyCorrect fresh
        (name :: "scan".toList :: range :: mode :: args) = some outcome ∧
      Tells a posixlyCorrect (name :: "scan".toList :: range :: mode :: args) outcome := by
  rw [parse_scan]
  cases hrange : frequencyRange a range with
  | none => exact ⟨_, rfl, tells_range_none a posixlyCorrect name mode args hrange⟩
  | some values =>
      by_cases hlen : mode.length ≤ largestDemodModeLen
      · cases hmode : demodMode mode with
        | error fault =>
            rw [demodMode_of_le hnul hlen] at hmode
            cases hmode
        | ok result =>
            cases result with
            | none => exact ⟨_, rfl, tells_mode_none a posixlyCorrect name args hnul hlen hmode⟩
            | some demod =>
                exact exists_tells_options a posixlyCorrect name args hrange
                  ((demodMode_eq_some_iff hnul hlen demod).mp hmode) hlen
      · rw [demodMode_of_lt hnul (not_le.mp hlen)]
        exact ⟨_, rfl,
          tells_mode_long a posixlyCorrect name args hrange (not_le.mp hlen) (.mode _)⟩

end Scan

/-- **The lines that are accepted.** From the first state of `getopt` a call always
returns, except for a mode that is too long. It returns a configuration for the
lines that ask for help, and for the scans that are in order; every other line
is refused. -/
theorem parse_language (a : Arithmetic) (posixlyCorrect : Bool) {argv : Argv} (hargv : argv ≠ [])
    (hnul : ∀ arg ∈ argv, nul ∉ arg) :
    ∃ outcome, parseProgramInput a posixlyCorrect fresh argv = some outcome ∧
      (∀ input, (∃ g, outcome = .ok (some input, g)) ↔
        HelpLine argv ∧ input = defaultProgramInput ∨ ScanLine a posixlyCorrect argv input) ∧
      ((∃ fault, outcome = .error fault) ↔ LongMode a argv) := by
  by_cases hhelp : HelpLine argv
  · refine ⟨_, ?_, tells_help hhelp fresh⟩
    rw [parseProgramInput, checkHelpCommand_eq, if_pos hhelp]
  have hcommand : parseProgramInput a posixlyCorrect fresh argv =
      checkScanCommand a posixlyCorrect fresh argv defaultProgramInput := by
    rw [parseProgramInput, checkHelpCommand_eq, if_neg hhelp]
  -- What is not a scan, or has too few elements for one.
  have hnull : ¬ (4 ≤ argv.length ∧ argv[1]? = some "scan".toList) →
      Tells a posixlyCorrect argv (.ok (none, fresh)) := fun hshape =>
    tells_null hhelp (fun _ hscan => hshape hscan.shape) (fun hlong => hshape hlong.shape) fresh
  obtain _ | ⟨name, _ | ⟨subcommand, args⟩⟩ := argv
  · exact absurd rfl hargv
  · exact absurd (Or.inl rfl) hhelp
  by_cases hscan : subcommand = "scan".toList
  · subst hscan
    obtain _ | ⟨range, _ | ⟨mode, args⟩⟩ := args
    · exact ⟨_, hcommand, hnull (by simp)⟩
    · exact ⟨_, hcommand, hnull (by simp)⟩
    · exact exists_tells_scan a posixlyCorrect name args (hnul mode (by simp))
  · refine ⟨_, hcommand.trans (if_pos hscan), hnull ?_⟩
    rintro ⟨-, hsubcommand⟩
    exact hscan (Option.some.inj hsubcommand)

/-- A scan with its mode in capital letters, a verbose flag in one word with a
hold time, and a second hold time that is read as far as it is a number. -/
def capitals : Argv :=
  ["rcs".toList, "scan".toList, "105.5M".toList, "AM".toList, "-vh8".toList, "-h".toList,
    "5s".toList]

theorem optionsOf_capitals :
    (optionsOf false capitals).events =
      [.flag 'v', .argument 'h' ['8'], .argument 'h' ['5', 's']] := by
  have hcondense : (condenseFlags capitals).drop 2 =
      ["105.5M".toList, "AM".toList, "-vh8".toList, "-h".toList, "5s".toList] := by
    decide
  have hfirst : scanFrom [] ["-vh8".toList, "-h".toList, "5s".toList] =
      scanFrom ['v', 'h', '8'] ["-h".toList, "5s".toList] :=
    scanFrom_cluster (by decide) _
  have hsecond : scanFrom [] ["-h".toList, "5s".toList] = scanFrom ['h'] ["5s".toList] :=
    scanFrom_cluster (by decide) _
  rw [optionsOf, hcondense, if_neg Bool.false_ne_true, scanFrom_nonoption rfl,
    scanFrom_nonoption rfl, hfirst, scanFrom_flag rfl, scanFrom_attached rfl (by decide), hsecond,
    scanFrom_separate rfl, scanFrom_nil]
  rfl

theorem parse_language_capitals :
    ∃ outcome, parseProgramInput exactArithmetic false fresh capitals = some outcome ∧
      ∃ g, outcome = .ok (some { defaultProgramInput with
        subcommand := .scan
        demodMode := .am
        holdTime := 5
        freqStart := 105500000
        freqEnd := 105500000 }, g) := by
  have hargv : capitals ≠ [] := List.cons_ne_nil _ _
  obtain ⟨outcome, hparse, haccepts, -⟩ := parse_language exactArithmetic false hargv (by decide)
  have hrange : frequencyRange exactArithmetic "105.5M".toList =
      some (.fin 105500000, .fin 105500000) := by
    decide +kernel
  refine ⟨outcome, hparse, (haccepts _).mpr (Or.inr ?_)⟩
  refine ⟨_, _, _, _, _, _, .am, rfl, hrange, by decide, ?_, ?_⟩
  · rw [optionsOf_capitals]
    intro e he
    simp only [List.mem_cons, List.not_mem_nil, or_false] at he
    rcases he with rfl | rfl | rfl
    · trivial
    · show atoi ['8'] ≠ 0
      decide
    · show atoi ['5', 's'] ≠ 0
      decide
  · rw [optionsOf_capitals]
    decide +kernel

end RadioChatter.Input
