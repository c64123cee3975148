import RadioChatter.Input.NumericOptions

/-!
Two calls of `parse_program_input` in one process.

Nothing resets `getopt` between two calls, so the second one goes on scanning
where the first one stopped. That makes no difference if the first one has
stopped between two elements and not beyond the second one, and it can make one
otherwise: of two vectors that only differ in front of that place one is
accepted and one is not, but the scan that goes on there cannot tell which.
-/

namespace RadioChatter.Input

open C99 Getopt

/-- What a call returns, without what it leaves behind. -/
def result (outcome : Outcome) : Except ParseFault (Option ProgramInput) := outcome.map Prod.fst

/-- A call with the vector `A` is of no consequence for a call with `B`, and that
call does not read past the end of `B`. -/
def Independent (a : Arithmetic) (posixlyCorrect : Bool) (A B : Argv) : Prop :=
  ∀ r g, parseProgramInput a posixlyCorrect fresh A = some (.ok (r, g)) →
    ∃ first second, parseProgramInput a posixlyCorrect fresh B = some first ∧
      parseProgramInput a posixlyCorrect g B = some second ∧
      result second = result first ∧ second ≠ .error (.argv .pastArgv)

/-- If the call gets as far as the options then they are accepted, they take up
one element at most, and the last one is not a flag. -/
def Clean (a : Arithmetic) (posixlyCorrect : Bool) (A : Argv) : Prop :=
  (scanInput a A).isSome → (∀ e ∈ (optionsOf posixlyCorrect A).events, Accepted e) ∧
    (optionsOf posixlyCorrect A).used ≤ 1 ∧
    ∀ c, (optionsOf posixlyCorrect A).events.getLast? ≠ some (.flag c)

/-! ### What the first call leaves behind -/

/-- The last option leaves no pointer into the vector, unless it is a flag. -/
theorem releasePointer_lastPointer {events : List Event}
    (h : ∀ c, events.getLast? ≠ some (.flag c)) :
    releasePointer true (lastPointer .null events) = .null := by
  rw [lastPointer_eq]
  cases hevent : events.getLast? with
  | none => rfl
  | some e =>
      cases e with
      | flag c => exact absurd hevent (h c)
      | argument c arg => rfl
      | bad => rfl

/-- The first scan of a process. -/
theorem first_scan {a : Arithmetic} {A : Argv} {input : ProgramInput} (h : Reads a A input) :
    ∃ g, parseProgramInput a false fresh A =
        some (.ok (applyEvents input (optionsOf false A).events, g)) ∧
      Leaves (passed 2) (optionsOf false A) g (applyEvents input (optionsOf false A).events) := by
  have hparse := parse_of_reads h false fresh
  obtain ⟨name, range, mode, args, ranged, demod, rfl, -, -, -⟩ := h
  have hle : 2 ≤ (condenseFlags (name :: "scan".toList :: range :: mode :: args)).length := by
    rw [condenseFlags_scan]
    exact Nat.le_add_left 2 _
  obtain ⟨g, hrun, hleaves⟩ := scanOptions_of_at false (at_passed Nat.two_pos hle) input
  exact ⟨g, hparse.trans ((scanOptions_fresh _ _ _).trans hrun), hleaves⟩

/-! ### When nothing is left -/

/-- A state from which the options of a scan are read as from the first one. -/
def Resumes (posixlyCorrect : Bool) (g : State) : Prop :=
  g = fresh ∨
    if posixlyCorrect then g = getoptInitialize true fresh
    else g.initialized = true ∧ g.ordering = .permute ∧ g.nextchar = .null ∧
      0 < g.optind ∧ g.optind ≤ 2

theorem resumes_of_clean {a : Arithmetic} {posixlyCorrect : Bool} {A : Argv}
    (hclean : Clean a posixlyCorrect A) (hA : A ≠ []) {r : Option ProgramInput} {g : State}
    (h : parseProgramInput a posixlyCorrect fresh A = some (.ok (r, g))) :
    Resumes posixlyCorrect g := by
  cases hscan : scanInput a A with
  | none =>
      obtain hparse | ⟨fault, hparse⟩ := parse_of_not_scanInput hscan hA
      · rw [hparse] at h
        obtain ⟨-, rfl⟩ := Prod.mk.inj (Except.ok.inj (Option.some.inj h))
        exact Or.inl rfl
      · rw [hparse] at h
        cases h
  | some input =>
      obtain ⟨hreads⟩ := reads_of_scanInput hscan
      obtain ⟨haccepted, hused, hlast⟩ := hclean (by rw [hscan]; rfl)
      right
      cases posixlyCorrect with
      | true =>
          rw [parse_of_reads hreads] at h
          obtain ⟨name, range, mode, args, ranged, demod, rfl, -, -, -⟩ := hreads
          rw [scanOptions_posix] at h
          obtain ⟨-, rfl⟩ := Prod.mk.inj (Except.ok.inj (Option.some.inj h))
          rw [if_pos rfl]
      | false =>
          obtain ⟨g', hrun, hleaves⟩ := first_scan hreads
          rw [hrun] at h
          obtain ⟨-, rfl⟩ := Prod.mk.inj (Except.ok.inj (Option.some.inj h))
          have hsome := (applyEvents_isSome_iff input _).mpr haccepted
          obtain ⟨input', happly⟩ := Option.isSome_iff_exists.mp hsome
          have hposition := hleaves.position
          rw [happly] at hposition
          obtain ⟨hoptind, hpointer⟩ := hposition 0 (scanned_passed (by decide))
          rw [if_neg Bool.false_ne_true]
          exact ⟨hleaves.initialized, hleaves.permute,
            hpointer.trans (releasePointer_lastPointer hlast), by omega, by omega⟩

theorem scanOptions_of_resumes {posixlyCorrect : Bool} {g : State} (h : Resumes posixlyCorrect g)
    (name : List Char) (args : Argv) (input : ProgramInput) :
    ∃ g', scanOptions posixlyCorrect g (name :: "scan".toList :: args) input =
      some (.ok (applyEvents input
        (optionsOf posixlyCorrect (name :: "scan".toList :: args)).events, g')) := by
  obtain ⟨g', hfresh⟩ := exists_scanOptions_fresh posixlyCorrect name args input
  obtain rfl | h := h
  · exact ⟨g', hfresh⟩
  cases posixlyCorrect with
  | true =>
      rw [if_pos rfl] at h
      subst h
      have hnextchar : (getoptInitialize true fresh).nextchar = fresh.nextchar := rfl
      have hargv : 0 < (condenseFlags (name :: "scan".toList :: args)).length := Nat.succ_pos _
      exact ⟨g', (scanOptions_congr hnextchar (getopt_fresh hargv).symm input).trans hfresh⟩
  | false =>
      rw [if_neg Bool.false_ne_true] at h
      obtain ⟨hinitialized, hpermute, hpointer, hpos, hle⟩ := h
      have hlength : g.optind ≤ (condenseFlags (name :: "scan".toList :: args)).length := by
        rw [condenseFlags_scan]
        exact hle.trans (Nat.le_add_left 2 _)
      have hat : At g (condenseFlags (name :: "scan".toList :: args)) []
          ((condenseFlags (name :: "scan".toList :: args)).drop g.optind) :=
        ⟨hinitialized, hpos, hpermute, by rw [hpointer]; rfl, rfl, hlength⟩
      -- In front of the third element there is nothing that is an option.
      have hscan : scanFrom [] ((condenseFlags (name :: "scan".toList :: args)).drop g.optind) =
          optionsOf false (name :: "scan".toList :: args) := by
        rw [optionsOf, if_neg Bool.false_ne_true, condenseFlags_scan]
        obtain hone | htwo : g.optind = 1 ∨ g.optind = 2 := by omega
        · rw [hone]
          exact scanFrom_nonoption rfl _
        · rw [htwo]
      obtain ⟨g', hrun, -⟩ := scanOptions_of_at false hat input
      rw [hscan] at hrun
      exact ⟨g', hrun⟩

/-- A call that does not get as far as the options cannot tell any two states. -/
theorem parse_of_no_scan {a : Arithmetic} (posixlyCorrect : Bool) (g : State) {B : Argv}
    (hscan : scanInput a B = none) (hB : B ≠ []) :
    ∃ first second, parseProgramInput a posixlyCorrect fresh B = some first ∧
      parseProgramInput a posixlyCorrect g B = some second ∧
      result second = result first ∧ second ≠ .error (.argv .pastArgv) := by
  obtain hparse | ⟨fault, hparse⟩ := parse_of_not_scanInput hscan hB
  · exact ⟨_, _, hparse posixlyCorrect fresh, hparse posixlyCorrect g, rfl, nofun⟩
  · exact ⟨_, _, hparse posixlyCorrect fresh, hparse posixlyCorrect g, rfl, nofun⟩

/-- The second call cannot tell such a state from the first one. -/
theorem parse_of_resumes (a : Arithmetic) {posixlyCorrect : Bool} {g : State}
    (h : Resumes posixlyCorrect g) {B : Argv} (hB : B ≠ []) :
    ∃ first second, parseProgramInput a posixlyCorrect fresh B = some first ∧
      parseProgramInput a posixlyCorrect g B = some second ∧
      result second = result first ∧ second ≠ .error (.argv .pastArgv) := by
  cases hscan : scanInput a B with
  | none => exact parse_of_no_scan posixlyCorrect g hscan hB
  | some input =>
      obtain ⟨hreads⟩ := reads_of_scanInput hscan
      have hparse := parse_of_reads hreads posixlyCorrect
      obtain ⟨name, range, mode, args, ranged, demod, rfl, -, -, -⟩ := hreads
      obtain ⟨g₁, hfirst⟩ := exists_scanOptions_fresh posixlyCorrect name (range :: mode :: args)
        input
      obtain ⟨g₂, hsecond⟩ := scanOptions_of_resumes h name (range :: mode :: args) input
      exact ⟨_, _, (hparse fresh).trans hfirst, (hparse g).trans hsecond, rfl, nofun⟩

/-! ### When something is left -/

/-- The scan of a range, with operands behind it. -/
def rangeLine (range : List Char) (n : ℕ) : Argv :=
  "rcs".toList :: "scan".toList :: range :: "fm".toList :: List.replicate n ['x']

/-- The input of a scan whose range is not a number. -/
def nanInput (a : Arithmetic) : ProgramInput :=
  { defaultProgramInput with
    subcommand := .scan
    freqStart := a.toUInt32 .nan
    freqEnd := a.toUInt32 .nan
    demodMode := .fm }

theorem reads_rangeLine {a : Arithmetic} {range : List Char}
    (h : frequencyRange a range = some (.nan, .nan)) (n : ℕ) :
    Nonempty (Reads a (rangeLine range n) (nanInput a)) :=
  ⟨⟨_, _, _, _, { defaultProgramInput with
    subcommand := .scan
    freqStart := a.toUInt32 .nan
    freqEnd := a.toUInt32 .nan }, .fm, rfl, by rw [sanitizeFrequencyRange, h]; rfl, rfl, rfl⟩⟩

theorem optionsOf_rangeLine (range : List Char) (n : ℕ) :
    optionsOf false (rangeLine range n) =
      scanFrom [] (condenseFlag range :: "fm".toList :: List.replicate n ['x']) := by
  have hreplicate : condenseFlags (List.replicate n ['x']) = List.replicate n ['x'] :=
    List.map_replicate
  rw [optionsOf, if_neg Bool.false_ne_true, rangeLine, condenseFlags_scan]
  change scanFrom [] (condenseFlag range :: "fm".toList :: condenseFlags (List.replicate n ['x'])) =
    _
  rw [hreplicate]

theorem optionsOf_nan (n : ℕ) : optionsOf false (rangeLine "nan".toList n) = ⟨[], 0⟩ := by
  have hoperands : (List.replicate n ['x']).dropWhile nonoption = [] := by
    simp [nonoption]
  have hcondense : condenseFlag "nan".toList = "nan".toList := by decide
  rw [optionsOf_rangeLine, hcondense, scanFrom_nonoption rfl, scanFrom_nonoption rfl,
    ← scanFrom_dropWhile, hoperands, scanFrom_nil]

theorem optionsOf_minus_nan (n : ℕ) :
    optionsOf false (rangeLine "-nan".toList n) = ⟨[.bad], 0⟩ := by
  have hcondense : condenseFlag "-nan".toList = ['-', 'n', 'a', 'n'] := by decide
  rw [optionsOf_rangeLine, hcondense, scanFrom_cluster (by decide), scanFrom_unknown rfl]

/-- What a call with a range returns that is not a number, from a state that
begins behind the range: it does not depend on the spelling. -/
theorem exists_result_rangeLine {a : Arithmetic} {g : State} {rest : List Char}
    (hinitialized : g.initialized = true) (hpermute : g.ordering = .permute)
    (hchars : g.nextchar.chars = some rest) (hbehind : 2 < g.optind + pending rest) :
    ∃ r, ∀ range, frequencyRange a range = some (.nan, .nan) →
      ∃ g', parseProgramInput a false g (rangeLine range (g.optind + pending rest)) =
        some (.ok (r, g')) := by
  have hpending := pending_le rest
  obtain ⟨k, hk⟩ : ∃ k, g.optind + pending rest = k + 3 := ⟨_, (Nat.sub_add_cancel hbehind).symm⟩
  rw [hk]
  refine ⟨applyEvents (nanInput a) (scanFrom rest ((condenseFlags
    ("fm".toList :: List.replicate (k + 3) ['x'])).drop k)).events, fun range hrange => ?_⟩
  obtain ⟨hreads⟩ := reads_rangeLine hrange (k + 3)
  have hat : At g (condenseFlags (rangeLine range (k + 3))) rest
      ((condenseFlags ("fm".toList :: List.replicate (k + 3) ['x'])).drop k) := by
    refine ⟨hinitialized, by omega, hpermute, hchars, by rw [hk]; rfl, ?_⟩
    rw [hk, condenseFlags, List.length_map, rangeLine]
    simp only [List.length_cons, List.length_replicate]
    omega
  obtain ⟨g', hrun, -⟩ := scanOptions_of_at false hat (nanInput a)
  exact ⟨g', (parse_of_reads hreads false g).trans hrun⟩

/-- The first call with such a range returns what its spelling says. -/
theorem exists_fresh_rangeLine {a : Arithmetic} {range : List Char}
    (hrange : frequencyRange a range = some (.nan, .nan)) (n : ℕ) :
    ∃ g, parseProgramInput a false fresh (rangeLine range n) =
      some (.ok (applyEvents (nanInput a) (optionsOf false (rangeLine range n)).events, g)) := by
  obtain ⟨hreads⟩ := reads_rangeLine hrange n
  obtain ⟨g, hrun⟩ := exists_scanOptions_fresh false "rcs".toList
    (range :: "fm".toList :: List.replicate n ['x']) (nanInput a)
  exact ⟨g, (parse_of_reads hreads false fresh).trans hrun⟩

/-- The second call returns something else than the first call with its vector would. -/
theorem not_independent_of_ne {a : Arithmetic} {posixlyCorrect : Bool} {A B : Argv}
    {r : Option ProgramInput} {g : State} {first second : Except ParseFault (Option ProgramInput)}
    (hrun : parseProgramInput a posixlyCorrect fresh A = some (.ok (r, g)))
    (hfirst : (parseProgramInput a posixlyCorrect fresh B).map result = some first)
    (hsecond : (parseProgramInput a posixlyCorrect g B).map result = some second)
    (hne : second ≠ first) : ¬ Independent a posixlyCorrect A B := by
  intro h
  obtain ⟨outcome, outcome', houtcome, houtcome', heq, -⟩ := h r g hrun
  rw [houtcome, Option.map_some] at hfirst
  rw [houtcome', Option.map_some] at hsecond
  apply hne
  rw [← Option.some.inj hfirst, ← Option.some.inj hsecond]
  exact heq

section Stale

variable {a : Arithmetic} {A : Argv} {r : Option ProgramInput} {g : State}
  (hrun : parseProgramInput a false fresh A = some (.ok (r, g)))
  (hinitialized : g.initialized = true)

include hrun hinitialized

/-- Two vectors that differ in front of the place where the scan goes on. -/
theorem not_independent_of_behind {rest : List Char} (hpermute : g.ordering = .permute)
    (hchars : g.nextchar.chars = some rest) (hbehind : 2 < g.optind + pending rest) :
    ∃ range n, ¬ Independent a false A (rangeLine range n) := by
  by_contra hnot
  have hall : ∀ range n, Independent a false A (rangeLine range n) := by
    intro range n
    by_contra hdependent
    exact hnot ⟨range, n, hdependent⟩
  obtain ⟨r', hresult⟩ := exists_result_rangeLine (a := a) hinitialized hpermute hchars hbehind
  have hsame : ∀ range, frequencyRange a range = some (.nan, .nan) →
      r' = applyEvents (nanInput a) (optionsOf false
        (rangeLine range (g.optind + pending rest))).events := by
    intro range hrange
    obtain ⟨g₁, hstale⟩ := hresult range hrange
    obtain ⟨g₂, hfresh⟩ := exists_fresh_rangeLine hrange (g.optind + pending rest)
    obtain ⟨first, second, hfirst, hsecond, heq, -⟩ := hall range _ r g hrun
    obtain rfl := Option.some.inj (hfresh.symm.trans hfirst)
    obtain rfl := Option.some.inj (hstale.symm.trans hsecond)
    exact Except.ok.inj heq
  have hplus := hsame "nan".toList rfl
  have hminus := hsame "-nan".toList rfl
  rw [optionsOf_nan] at hplus
  rw [optionsOf_minus_nan] at hminus
  cases hplus.symm.trans hminus

/-- The second call reads a character of a string that the first one has freed. -/
theorem not_independent_of_freed (hoptind : 0 < g.optind) (hfreed : g.nextchar = .freed) :
    ¬ Independent a false A (rangeLine "nan".toList 0) := by
  have hrange : frequencyRange a "nan".toList = some (.nan, .nan) := rfl
  obtain ⟨hreads⟩ := reads_rangeLine hrange 0
  have hcall : getopt false g (condenseFlags (rangeLine "nan".toList 0)) = .error .freed :=
    getopt_freed (Nat.succ_pos _) hoptind hinitialized hfreed
  have hbody : optionBody false ⟨g, condenseFlags (rangeLine "nan".toList 0), nanInput a⟩ =
      .inr (.error (.argv .freed)) := by
    simp only [optionBody, hcall]
  have hstale : parseProgramInput a false g (rangeLine "nan".toList 0) =
      some (.error (.argv .freed)) :=
    (parse_of_reads hreads false g).trans (BoundedLoop.run_of_inr hbody _)
  obtain ⟨g', hfresh⟩ := exists_fresh_rangeLine hrange 0
  apply not_independent_of_ne hrun (congrArg (Option.map result) hfresh)
    (congrArg (Option.map result) hstale)
  intro hsame
  cases hsame

end Stale

/-- What a scan leaves behind that is not clean. -/
theorem left_of_not_clean {A : Argv} {r : Option ProgramInput} {g : State} {input : ProgramInput}
    (hleaves : Leaves (passed 2) (optionsOf false A) g r)
    (hr : r = applyEvents input (optionsOf false A).events)
    (hnot : ¬ ((∀ e ∈ (optionsOf false A).events, Accepted e) ∧ (optionsOf false A).used ≤ 1 ∧
      ∀ c, (optionsOf false A).events.getLast? ≠ some (.flag c))) :
    (0 < g.optind ∧ g.nextchar = .freed) ∨
      ∃ rest, g.nextchar.chars = some rest ∧ 2 < g.optind + pending rest := by
  have hposition := hleaves.position
  cases r with
  | none => exact Or.inr hposition
  | some input' =>
      have haccepted := (applyEvents_isSome_iff input _).mp (by rw [← hr]; rfl)
      obtain ⟨hoptind, hpointer⟩ := hposition 0 (scanned_passed (by decide))
      by_cases hlast : ∃ c, (optionsOf false A).events.getLast? = some (.flag c)
      · obtain ⟨c, hlast⟩ := hlast
        rw [lastPointer_eq, hlast] at hpointer
        exact Or.inl ⟨by omega, hpointer⟩
      · have hnone : ∀ c, (optionsOf false A).events.getLast? ≠ some (.flag c) :=
          fun c hc => hlast ⟨c, hc⟩
        have hused : ¬ (optionsOf false A).used ≤ 1 := fun hle => hnot ⟨haccepted, hle, hnone⟩
        have hnull : g.nextchar = .null := hpointer.trans (releasePointer_lastPointer hnone)
        refine Or.inr ⟨[], by rw [hnull]; rfl, ?_⟩
        rw [pending]
        omega

/-- **Two calls of one process.** The first call is of no consequence for any
second one exactly if it is clean, and never for one that does not get as far
as the options. -/
theorem independent_iff (a : Arithmetic) (posixlyCorrect : Bool) (A : Argv) :
    ((∀ B, B ≠ [] → Independent a posixlyCorrect A B) ↔ Clean a posixlyCorrect A) ∧
      ∀ B, B ≠ [] → scanInput a B = none → Independent a posixlyCorrect A B := by
  refine ⟨⟨?_, ?_⟩, ?_⟩
  · intro h hscan
    cases posixlyCorrect with
    | true => exact ⟨nofun, Nat.zero_le 1, nofun⟩
    | false =>
        obtain ⟨input, hinput⟩ := Option.isSome_iff_exists.mp hscan
        obtain ⟨hreads⟩ := reads_of_scanInput hinput
        obtain ⟨g, hrun, hleaves⟩ := first_scan hreads
        by_contra hnot
        obtain ⟨hoptind, hfreed⟩ | ⟨rest, hchars, hbehind⟩ :=
          left_of_not_clean hleaves rfl hnot
        · exact not_independent_of_freed hrun hleaves.initialized hoptind hfreed
            (h _ (List.cons_ne_nil _ _))
        · obtain ⟨range, n, hdependent⟩ :=
            not_independent_of_behind hrun hleaves.initialized hleaves.permute hchars hbehind
          exact hdependent (h _ (List.cons_ne_nil _ _))
  · intro hclean B hB r g hrun
    have hA : A ≠ [] := by
      rintro rfl
      cases hrun
    exact parse_of_resumes a (resumes_of_clean hclean hA hrun) hB
  · intro B hB hscan r g _
    exact parse_of_no_scan posixlyCorrect g hscan hB

/-- After a scan with two options the next one begins past the end of its
vector; after a refused cluster the next one reads what is left of it. -/
theorem not_independent :
    ¬ Independent exactArithmetic false
      ["rcs".toList, "scan".toList, "105".toList, "fm".toList, "-t".toList, "5".toList,
        "-h".toList, "6".toList]
      ["rcs".toList, "scan".toList, "105".toList, "fm".toList] ∧
    ¬ Independent exactArithmetic false
      ["rcs".toList, "scan".toList, "105".toList, "fm".toList, "-zt9".toList]
      ["rcs".toList, "scan".toList, "105".toList, "fm".toList, "am".toList] := by
  constructor
  · have hsecond : (parseProgramInput exactArithmetic false
        { passed 5 with firstNonopt := 5, lastNonopt := 8 }
        ["rcs".toList, "scan".toList, "105".toList, "fm".toList]).map result =
          some (.error (.argv .pastArgv)) := by
      decide +kernel
    have hfirst : (parseProgramInput exactArithmetic false fresh
        ["rcs".toList, "scan".toList, "105".toList, "fm".toList]).map result =
          some (.ok (some { defaultProgramInput with
            subcommand := .scan, freqStart := 105, freqEnd := 105 })) := by
      decide +kernel
    exact not_independent_of_ne (r := some { defaultProgramInput with
      subcommand := .scan, freqStart := 105, freqEnd := 105, timeout := 5, holdTime := 6 })
      (by decide +kernel) hfirst hsecond nofun
  · have hsecond : (parseProgramInput exactArithmetic false
        { passed 4 with
          nextchar := .into true ['t', '9']
          printed := ["rcs: invalid option -- z\n".toList] }
        ["rcs".toList, "scan".toList, "105".toList, "fm".toList, "am".toList]).map result =
          some (.ok (some { defaultProgramInput with
            subcommand := .scan, freqStart := 105, freqEnd := 105, timeout := 9 })) := by
      decide +kernel
    have hfirst : (parseProgramInput exactArithmetic false fresh
        ["rcs".toList, "scan".toList, "105".toList, "fm".toList, "am".toList]).map result =
          some (.ok (some { defaultProgramInput with
            subcommand := .scan, freqStart := 105, freqEnd := 105 })) := by
      decide +kernel
    exact not_independent_of_ne (r := none) (by decide +kernel) hfirst hsecond (by decide)

end RadioChatter.Input
