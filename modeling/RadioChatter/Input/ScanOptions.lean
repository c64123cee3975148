import RadioChatter.Input.ParseProgramInput

/-!
The option loop of the scan over all of its iterations.

The loop does to the input what the options do to it one after the other, in
the order in which they stand in the vector. From there on nothing depends on
the permutation: what is stored are the arguments as `atoi` reads them.
-/

namespace RadioChatter.Input

open C99 Getopt

/-! ### The options one after the other -/

/-- The field of an option with a number. -/
def ProgramInput.setNumber (input : ProgramInput) (c : Char) (n : ℤ) : ProgramInput :=
  if c = 't' then { input with timeout := n }
  else if c = 'h' then { input with holdTime := n }
  else if c = 'c' then { input with cycles := n }
  else input

/-- What a list of options makes of an input, if none of them is refused. -/
def applyEvents : ProgramInput → List Event → Option ProgramInput
  | input, [] => some input
  | input, .flag _ :: events => applyEvents input events
  | input, .argument c arg :: events =>
      if atoi arg = 0 then none else applyEvents (input.setNumber c (atoi arg)) events
  | _, .bad :: _ => none

theorem kindOf_eq_flag {c : Char} (h : kindOf c = .flag) : c = 'v' := by
  by_contra hv
  rw [kindOf_eq, if_neg hv] at h
  split at h <;> cases h

theorem kindOf_eq_argument {c : Char} (h : kindOf c = .argument) :
    c = 't' ∨ c = 'h' ∨ c = 'c' := by
  by_contra hnot
  rw [kindOf_eq, if_neg hnot] at h
  split at h <;> cases h

section Body

variable {posixlyCorrect : Bool} {loop : OptionLoop} {call : Call}
  (hcall : getopt posixlyCorrect loop.getopt loop.margv = .ok call)

include hcall

theorem optionBody_finished (hopt : call.opt = none) :
    optionBody posixlyCorrect loop = .inr (.ok (some loop.input, release true call.state)) := by
  simp only [optionBody, hcall, hopt]

theorem optionBody_rejected (hopt : call.opt = some '?') :
    optionBody posixlyCorrect loop = .inr (.ok (none, release false call.state)) := by
  simp only [optionBody, hcall, hopt]
  rfl

/-- The verbose flag changes nothing. -/
theorem optionBody_flag {c : Char} (hc : kindOf c = .flag) (hopt : call.opt = some c) :
    optionBody posixlyCorrect loop = .inl ⟨call.state, call.argv, loop.input⟩ := by
  obtain rfl := kindOf_eq_flag hc
  simp only [optionBody, hcall, hopt]
  rfl

theorem optionBody_argument {c : Char} (hc : kindOf c = .argument) (hopt : call.opt = some c)
    {arg : List Char} (hoptarg : call.optarg = some arg) :
    optionBody posixlyCorrect loop =
      if atoi arg = 0 then .inr (.ok (none, release false call.state))
      else .inl ⟨call.state, call.argv, loop.input.setNumber c (atoi arg)⟩ := by
  obtain rfl | rfl | rfl := kindOf_eq_argument hc
  · simp only [optionBody, hcall, hopt, storeNumber, hoptarg]
    rfl
  · simp only [optionBody, hcall, hopt, storeNumber, hoptarg]
    rfl
  · simp only [optionBody, hcall, hopt, storeNumber, hoptarg]
    rfl

end Body

/-! ### The whole loop -/

/-- Where `nextchar` points after an option, if nothing is left of its element. -/
def pointerAfter : Event → Pointer
  | .flag _ => .into false []
  | _ => .null

/-- Where `nextchar` points after the options, from where it pointed before. -/
def lastPointer : Pointer → List Event → Pointer
  | p, [] => p
  | _, e :: events => lastPointer (pointerAfter e) events

/-- Where the scan stands after the loop, having begun with `s`. -/
def Position (s : State) (r : Scan) (g : State) : Option ProgramInput → Prop
  | some _ => ∀ used, Scanned s used → g.optind = 1 + (used + r.used) ∧
      g.nextchar = releasePointer true (lastPointer s.nextchar r.events)
  | none => ∃ rest, g.nextchar.chars = some rest ∧ s.optind < g.optind + pending rest

/-- What the loop leaves behind. -/
structure Leaves (s : State) (r : Scan) (g : State) (result : Option ProgramInput) : Prop where
  initialized : g.initialized = true
  permute : g.ordering = .permute
  position : Position s r g result

theorem pending_le (rest : List Char) : pending rest ≤ 1 := by
  cases rest with
  | nil => exact Nat.zero_le 1
  | cons c rest => exact le_refl 1

theorem lastPointer_congr {p q : Pointer} {events : List Event} (h : events = [] → p = q) :
    lastPointer p events = lastPointer q events := by
  cases events with
  | nil => exact h rfl
  | cons e events => rfl

theorem lastPointer_eq (p : Pointer) (events : List Event) :
    lastPointer p events = (events.getLast?.map pointerAfter).getD p := by
  induction events generalizing p with
  | nil => rfl
  | cons e events ih =>
      rw [lastPointer, ih, List.getLast?_cons]
      cases events.getLast? <;> rfl

@[simp] theorem chars_releasePointer (p : Pointer) : (releasePointer false p).chars = p.chars := by
  cases p with
  | null => rfl
  | into leaked rest => cases leaked <;> rfl
  | freed => rfl

/-- What holds after the first option of a scan holds of the whole scan. -/
theorem Leaves.cons {s s' g : State} {r : Scan} {e : Event} {n : ℕ} {result : Option ProgramInput}
    (h : Leaves s' r g result) (hoptind : s.optind ≤ s'.optind)
    (hscanned : ∀ used, Scanned s used → Scanned s' (used + n) ∧
      lastPointer s'.nextchar r.events = lastPointer s.nextchar (e :: r.events)) :
    Leaves s (r.cons e n) g result := by
  refine ⟨h.initialized, h.permute, ?_⟩
  have hposition := h.position
  cases result with
  | none =>
      obtain ⟨rest, hchars, hlt⟩ := hposition
      exact ⟨rest, hchars, hoptind.trans_lt hlt⟩
  | some input =>
      intro used hused
      obtain ⟨hnext, hlast⟩ := hscanned used hused
      obtain ⟨hg, hpointer⟩ := hposition _ hnext
      refine ⟨?_, hpointer.trans (congrArg _ hlast)⟩
      rw [hg, Scan.cons, Nat.add_assoc]

/-- The loop ends, and it does to the input what the options of `r` do. -/
def Runs (posixlyCorrect : Bool) (fuel : ℕ) (s : State) (argv : Argv) (input : ProgramInput)
    (r : Scan) : Prop :=
  ∃ g, BoundedLoop.run (optionBody posixlyCorrect) fuel ⟨s, argv, input⟩ =
      some (.ok (applyEvents input r.events, g)) ∧
    Leaves s r g (applyEvents input r.events)

section Iteration

variable {posixlyCorrect : Bool} {fuel n : ℕ} {s : State} {argv args : Argv}
  {cluster : List Char} {c : Char} {input : ProgramInput} {call : Call}
  (hcall : getopt posixlyCorrect s argv = .ok call)
  (hstate : At call.state call.argv cluster args)
  (hoptind : s.optind < call.state.optind + pending cluster)
  (hscanned : ∀ used, Scanned s used → Scanned call.state (used + n))

include hcall hstate hoptind hscanned

/-- The iterations after a flag. -/
theorem Runs.flag (hreturned : (Event.flag c).Returned cluster call)
    (h : Runs posixlyCorrect fuel call.state call.argv input (scanFrom cluster args)) :
    Runs posixlyCorrect (fuel + 1) s argv input ((scanFrom cluster args).cons (.flag c) n) := by
  have hpending := pending_le cluster
  obtain ⟨hkind, hopt, leaked, hpointer⟩ := hreturned
  obtain ⟨g, hrun, hleaves⟩ := h
  refine ⟨g, (BoundedLoop.run_of_inl (optionBody_flag hcall hkind hopt) fuel).trans hrun,
    hleaves.cons (by omega) ?_⟩
  intro used hused
  refine ⟨hscanned used hused, ?_⟩
  apply lastPointer_congr
  -- Where no option follows, the flag was the last of its element.
  intro hnil
  have hown := (hscanned used hused).own
  rw [hpointer] at hown ⊢
  cases leaked with
  | true => exact absurd rfl (hown cluster)
  | false =>
      cases cluster with
      | nil => rfl
      | cons c' rest => exact absurd hnil (events_scanFrom_cons_ne c' rest args)

/-- The iterations after an option with a number, if it is not refused. -/
theorem Runs.argument {arg : List Char} (hreturned : (Event.argument c arg).Returned cluster call)
    (h : Runs posixlyCorrect fuel call.state call.argv (input.setNumber c (atoi arg))
      (scanFrom cluster args)) :
    Runs posixlyCorrect (fuel + 1) s argv input
      ((scanFrom cluster args).cons (.argument c arg) n) := by
  have hpending := pending_le cluster
  obtain ⟨hkind, hopt, hoptarg, hpointer⟩ := hreturned
  have hbody : optionBody posixlyCorrect ⟨s, argv, input⟩ = _ :=
    optionBody_argument hcall hkind hopt hoptarg
  have happly : applyEvents input ((scanFrom cluster args).cons (.argument c arg) n).events =
      if atoi arg = 0 then none
      else applyEvents (input.setNumber c (atoi arg)) (scanFrom cluster args).events :=
    rfl
  rw [Runs, happly]
  by_cases hzero : atoi arg = 0
  · rw [if_pos hzero] at hbody ⊢
    exact ⟨_, BoundedLoop.run_of_inr hbody fuel, hstate.initialized, hstate.permute,
      cluster, (chars_releasePointer _).trans hstate.nextchar, hoptind⟩
  · rw [if_neg hzero] at hbody ⊢
    obtain ⟨g, hrun, hleaves⟩ := h
    refine ⟨g, (BoundedLoop.run_of_inl hbody fuel).trans hrun, hleaves.cons (by omega) ?_⟩
    intro used hused
    refine ⟨hscanned used hused, ?_⟩
    rw [hpointer]
    rfl

end Iteration

/-- **The option loop.** It ends, and it does to the input what the options of
the vector do. -/
theorem run_optionBody (posixlyCorrect : Bool) {fuel : ℕ} {s : State} {argv args : Argv}
    {cluster : List Char} (h : At s argv cluster args) (hfuel : size cluster args < fuel)
    (input : ProgramInput) :
    Runs posixlyCorrect fuel s argv input (scanFrom cluster args) := by
  induction fuel generalizing s argv cluster args input with
  | zero => exact absurd hfuel (Nat.not_lt_zero _)
  | succ fuel ih =>
      obtain ⟨call, hcall, hstep⟩ := h.getopt posixlyCorrect
      cases hstep with
      | finished n hopt hscan hnextchar hinitialized hpermute hoptind =>
          rw [hscan]
          refine ⟨_, BoundedLoop.run_of_inr (optionBody_finished hcall hopt) fuel,
            hinitialized, hpermute, ?_⟩
          intro used hscanned
          exact ⟨hoptind used hscanned, congrArg (releasePointer true) hnextchar⟩
      | rejected hopt hscan hinitialized hpermute rest hnextchar hoptind =>
          rw [hscan]
          -- The vector stays as it is, and `nextchar` goes on pointing into it.
          exact ⟨_, BoundedLoop.run_of_inr (optionBody_rejected hcall hopt) fuel,
            hinitialized, hpermute, rest, (chars_releasePointer _).trans hnextchar, hoptind⟩
      | option e n cluster' args' hscan hsize hreturned hstate hoptind hscanned =>
          rw [hscan]
          cases e with
          | flag c =>
              exact Runs.flag hcall hstate hoptind hscanned hreturned
                (ih hstate (by omega) input)
          | argument c arg =>
              exact Runs.argument hcall hstate hoptind hscanned hreturned
                (ih hstate (by omega) _)
          | bad => exact hreturned.elim

/-! ### The scan of a program that has just started -/

/-- `getopt` has passed over the elements in front of `k`, and no option. -/
def passed (k : ℕ) : State where
  optind := k
  initialized := true
  nextchar := .null
  firstNonopt := 1
  lastNonopt := k
  ordering := .permute
  printed := []

theorem at_passed {k : ℕ} {argv : Argv} (hk : 0 < k) (hle : k ≤ argv.length) :
    At (passed k) argv [] (argv.drop k) :=
  ⟨rfl, hk, rfl, rfl, rfl, hle⟩

theorem scanned_passed {k : ℕ} (hk : 1 < k) : Scanned (passed k) 0 :=
  ⟨hk, le_refl k, by simp [passed], nofun⟩

theorem getopt_passed {k : ℕ} {argv : Argv} {posixlyCorrect : Bool} (hk : 0 < k)
    (hle : k ≤ argv.length) : getopt posixlyCorrect (passed k) argv = advance (passed k) argv := by
  unfold getopt
  rw [if_neg (by omega)]
  have hne : ¬ ((passed k).optind = 0 ∨ (passed k).initialized = false) := by
    simp [passed]
    omega
  simp only [if_neg hne]
  rfl

theorem skipNonoptions_passed {k : ℕ} (hk : 0 < k) (argv : Argv) :
    skipNonoptions (clamp (passed k)) argv =
      .ok (passed (k + ((argv.drop k).takeWhile nonoption).length), argv) := by
  have hclamp : clamp (passed k) = passed k := by
    simp only [clamp, passed, Nat.min_eq_left hk, Nat.min_self]
  have hbring : bringForward (passed k) argv = .ok (passed k, argv) := by
    unfold bringForward
    rw [if_neg fun h => h.2 rfl, if_neg fun h => h rfl]
  unfold skipNonoptions
  rw [hclamp, hbring]
  rfl

/-- Passing over one more element makes no difference. -/
theorem getopt_passed_succ {k : ℕ} {argv args : Argv} {arg : List Char} (posixlyCorrect : Bool)
    (hk : 0 < k) (hargs : argv.drop k = arg :: args) (harg : nonoption arg = true) :
    getopt posixlyCorrect (passed k) argv = getopt posixlyCorrect (passed (k + 1)) argv := by
  obtain ⟨-, hrest, hlt⟩ := element_of_drop hargs
  have hcount : k + ((argv.drop k).takeWhile nonoption).length =
      k + 1 + ((argv.drop (k + 1)).takeWhile nonoption).length := by
    rw [hargs, hrest, List.takeWhile_cons_of_pos harg, List.length_cons]
    omega
  rw [getopt_passed hk hlt.le, getopt_passed (Nat.succ_pos k) hlt]
  unfold advance
  rw [skipNonoptions_passed hk, skipNonoptions_passed (Nat.succ_pos k), hcount]

/-- The state after the element `scan` differs from the first one in nothing
that matters. -/
theorem getopt_fresh_scan (name : List Char) (args : Argv) :
    getopt false fresh (name :: "scan".toList :: args) =
      getopt false (passed 2) (name :: "scan".toList :: args) :=
  calc getopt false fresh (name :: "scan".toList :: args)
      = getopt false (passed 1) (name :: "scan".toList :: args) :=
        getopt_fresh (Nat.succ_pos _)
    _ = getopt false (passed 2) (name :: "scan".toList :: args) :=
        getopt_passed_succ false Nat.one_pos rfl rfl

/-- With `POSIXLY_CORRECT` the subcommand ends the options. -/
theorem getopt_posix (name : List Char) (args : Argv) :
    getopt true fresh (name :: "scan".toList :: args) =
      .ok ⟨none, none, getoptInitialize true fresh, name :: "scan".toList :: args⟩ := by
  have hargv : 0 < (name :: "scan".toList :: args).length := Nat.succ_pos _
  rw [getopt_fresh hargv]
  rfl

theorem optionBody_congr {posixlyCorrect : Bool} {s s' : State} {margv : Argv}
    (h : getopt posixlyCorrect s margv = getopt posixlyCorrect s' margv) (input : ProgramInput) :
    optionBody posixlyCorrect ⟨s, margv, input⟩ = optionBody posixlyCorrect ⟨s', margv, input⟩ := by
  simp only [optionBody, h]

/-- The scan depends on a state through the first call. -/
theorem scanOptions_congr {posixlyCorrect : Bool} {s s' : State} {argv : Argv}
    (hnextchar : s.nextchar = s'.nextchar)
    (h : getopt posixlyCorrect s (condenseFlags argv) =
      getopt posixlyCorrect s' (condenseFlags argv)) (input : ProgramInput) :
    scanOptions posixlyCorrect s argv input = scanOptions posixlyCorrect s' argv input := by
  unfold scanOptions optionFuel
  rw [hnextchar]
  exact BoundedLoop.run_congr (optionBody_congr h input) _

@[simp] theorem condenseFlags_scan (name : List Char) (args : Argv) :
    condenseFlags (name :: "scan".toList :: args) =
      condenseFlag name :: "scan".toList :: condenseFlags args := rfl

theorem size_drop_le (cluster : List Char) (k : ℕ) (args : Argv) :
    size cluster (args.drop k) ≤ size cluster args := by
  have hsum : (((args.take k) ++ (args.drop k)).map List.length).sum =
      (args.map List.length).sum := by
    rw [List.take_append_drop]
  rw [List.map_append, List.sum_append] at hsum
  rw [size, size]
  omega

/-- The scan from any state that `getopt` can go on from. -/
theorem scanOptions_of_at (posixlyCorrect : Bool) {s : State} {argv args : Argv}
    {cluster : List Char} (h : At s (condenseFlags argv) cluster args) (input : ProgramInput) :
    ∃ g, scanOptions posixlyCorrect s argv input =
        some (.ok (applyEvents input (scanFrom cluster args).events, g)) ∧
      Leaves s (scanFrom cluster args) g (applyEvents input (scanFrom cluster args).events) := by
  apply run_optionBody posixlyCorrect h
  rw [optionFuel, h.nextchar, Option.getD_some, ← h.rest]
  exact Nat.lt_succ_of_le (size_drop_le cluster _ _)

theorem scanOptions_fresh (name : List Char) (args : Argv) (input : ProgramInput) :
    scanOptions false fresh (name :: "scan".toList :: args) input =
      scanOptions false (passed 2) (name :: "scan".toList :: args) input := by
  have hnextchar : fresh.nextchar = (passed 2).nextchar := rfl
  apply scanOptions_congr hnextchar
  rw [condenseFlags_scan]
  exact getopt_fresh_scan _ _

theorem scanOptions_posix (name : List Char) (args : Argv) (input : ProgramInput) :
    scanOptions true fresh (name :: "scan".toList :: args) input =
      some (.ok (some input, getoptInitialize true fresh)) := by
  have hcall := getopt_posix (condenseFlag name) (condenseFlags args)
  have hbody : optionBody true ⟨fresh, condenseFlags (name :: "scan".toList :: args), input⟩ = _ :=
    optionBody_finished hcall rfl
  unfold scanOptions optionFuel
  exact BoundedLoop.run_of_inr hbody _

/-- The options of a command line. With `POSIXLY_CORRECT` it has none, because
the subcommand stands in front of them. -/
def optionsOf (posixlyCorrect : Bool) (argv : Argv) : Scan :=
  if posixlyCorrect then ⟨[], 0⟩ else scanFrom [] ((condenseFlags argv).drop 2)

/-- **The options of the first scan.** The program's input is what they make of
it, whatever their order. -/
theorem exists_scanOptions_fresh (posixlyCorrect : Bool) (name : List Char) (args : Argv)
    (input : ProgramInput) :
    ∃ g, scanOptions posixlyCorrect fresh (name :: "scan".toList :: args) input =
      some (.ok (applyEvents input
        (optionsOf posixlyCorrect (name :: "scan".toList :: args)).events, g)) := by
  cases posixlyCorrect with
  | true => exact ⟨_, scanOptions_posix name args input⟩
  | false =>
      have hle : 2 ≤ (condenseFlags (name :: "scan".toList :: args)).length := by
        rw [condenseFlags_scan]
        exact Nat.le_add_left 2 _
      obtain ⟨g, hrun, -⟩ := scanOptions_of_at false (at_passed Nat.two_pos hle) input
      exact ⟨g, (scanOptions_fresh name args input).trans hrun⟩

/-! ### What is printed -/

theorem storeNumber_cases (call : Call) (set : ℤ → ProgramInput) :
    storeNumber call set = .inr (.error .nullPointer) ∨
      storeNumber call set = .inr (.ok (none, release false call.state)) ∨
      ∃ input, storeNumber call set = .inl ⟨call.state, call.argv, input⟩ := by
  unfold storeNumber
  split
  · exact .inl rfl
  · split
    · exact .inr (.inl rfl)
    · exact .inr (.inr ⟨_, rfl⟩)

/-- What an iteration comes to: the options are over, or one was refused by
`getopt`, or by its number, or the next one is to be read. -/
theorem optionBody_cases {posixlyCorrect : Bool} {loop : OptionLoop} {call : Call}
    (hcall : getopt posixlyCorrect loop.getopt loop.margv = .ok call) :
    (call.opt = none ∧
      optionBody posixlyCorrect loop = .inr (.ok (some loop.input, release true call.state))) ∨
    (call.opt = some '?' ∧
      optionBody posixlyCorrect loop = .inr (.ok (none, release false call.state))) ∨
    (call.opt ≠ some '?' ∧
      (optionBody posixlyCorrect loop = .inr (.error .nullPointer) ∨
        optionBody posixlyCorrect loop = .inr (.ok (none, release false call.state)) ∨
        ∃ input, optionBody posixlyCorrect loop = .inl ⟨call.state, call.argv, input⟩)) := by
  unfold optionBody
  rw [hcall]
  dsimp only
  cases hopt : call.opt with
  | none => exact .inl ⟨rfl, rfl⟩
  | some opt =>
      by_cases hbad : opt = '?'
      · subst hbad
        exact .inr (.inl ⟨rfl, rfl⟩)
      · refine .inr (.inr ⟨fun h => hbad (Option.some.inj h), ?_⟩)
        simp only [hbad, if_false]
        split
        · exact storeNumber_cases call _
        · split
          · exact storeNumber_cases call _
          · split
            · exact storeNumber_cases call _
            · exact .inr (.inr ⟨_, rfl⟩)

/-- From `s` on one line was printed at most, and none if the line is accepted. -/
def Complains (s : State) (outcome : Outcome) : Prop :=
  ∀ r g, outcome = .ok (r, g) →
    ∃ texts, g.printed = s.printed ++ texts ∧ texts.length ≤ 1 ∧ (r.isSome = true → texts = [])

theorem Complains.of_eq {s g : State} {r : Option ProgramInput} (h : g.printed = s.printed) :
    Complains s (.ok (r, g)) := by
  rintro r' g' ⟨⟩
  exact ⟨[], by rw [h, List.append_nil], Nat.zero_le 1, fun _ => rfl⟩

theorem complains_error (s : State) (fault : ParseFault) : Complains s (.error fault) := by
  rintro r g ⟨⟩

theorem complains_optionBody (posixlyCorrect : Bool) (loop : OptionLoop) :
    match optionBody posixlyCorrect loop with
    | .inl loop' => loop'.getopt.printed = loop.getopt.printed
    | .inr outcome => Complains loop.getopt outcome := by
  cases hcall : getopt posixlyCorrect loop.getopt loop.margv with
  | error fault =>
      simp only [optionBody, hcall]
      exact complains_error _ _
  | ok call =>
      have hprinted := printed_of_getopt hcall
      unfold Printed at hprinted
      obtain ⟨hopt, hbody⟩ | ⟨hopt, hbody⟩ | ⟨hopt, hbody | hbody | ⟨input, hbody⟩⟩ :=
        optionBody_cases hcall
      · rw [hbody]
        rw [if_neg (by rw [hopt]; nofun)] at hprinted
        exact .of_eq hprinted
      · rw [hbody]
        rw [if_pos hopt] at hprinted
        obtain ⟨text, htext⟩ := hprinted
        rintro r g ⟨⟩
        exact ⟨[text], htext, le_refl 1, nofun⟩
      · rw [hbody]
        exact complains_error _ _
      · rw [hbody]
        rw [if_neg hopt] at hprinted
        exact .of_eq hprinted
      · rw [hbody]
        rw [if_neg hopt] at hprinted
        exact hprinted

theorem complains_scanOptions {posixlyCorrect : Bool} {s : State} {argv : Argv}
    {input : ProgramInput} {outcome : Outcome}
    (h : scanOptions posixlyCorrect s argv input = some outcome) : Complains s outcome := by
  refine BoundedLoop.run_invariant (fun loop => loop.getopt.printed = s.printed) (Complains s)
    ?_ ?_ rfl h
  · intro loop loop' hloop hbody
    have hprinted := complains_optionBody posixlyCorrect loop
    rw [hbody] at hprinted
    exact hprinted.trans hloop
  · intro loop outcome hloop hbody
    have hprinted := complains_optionBody posixlyCorrect loop
    rw [hbody] at hprinted
    rw [Complains, ← hloop]
    exact hprinted

/-- **The messages of `getopt`.** A line that is accepted has none, and a line that
is refused one at most. -/
theorem complains_parse {a : Arithmetic} {posixlyCorrect : Bool} {s : State} {argv : Argv}
    {outcome : Outcome} (h : parseProgramInput a posixlyCorrect s argv = some outcome) :
    Complains s outcome := by
  unfold parseProgramInput at h
  split at h
  · cases h
    exact .of_eq rfl
  · unfold checkScanCommand at h
    split at h
    · split at h
      · cases h
        exact .of_eq rfl
      · split at h
        · split at h
          · cases h
            exact .of_eq rfl
          · split at h
            · cases h
              exact complains_error _ _
            · cases h
              exact .of_eq rfl
            · exact complains_scanOptions h
        · cases h
          exact .of_eq rfl
    · cases h
      exact complains_error _ _

end RadioChatter.Input
