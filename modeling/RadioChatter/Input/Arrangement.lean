import RadioChatter.Getopt.Permutation
import RadioChatter.Input.ScanOptions

/-!
The copy of the vector that `check_scan_command` lets `getopt` rearrange.

At every iteration of the option loop it holds the strings that `condense_flags`
has made, in another order, so that `free_modified_argv` frees each of them once.
When the options are at their end, theirs stand in front.
-/

namespace RadioChatter.Input

open Getopt

/-- The loop may as well be at a position that `getopt` goes on from. -/
def LoopArranged (opts others : Argv) (loop : OptionLoop) : Prop :=
  ∃ s cluster args, getopt false loop.getopt loop.margv = getopt false s loop.margv ∧
    At s loop.margv cluster args ∧ Arranged opts others s loop.margv cluster args

section Loop

variable {opts others : Argv} {loop loop' : OptionLoop}

/-- An option loop that goes on has passed a call on. -/
theorem exists_call_of_optionBody {posixlyCorrect : Bool}
    (h : optionBody posixlyCorrect loop = .inl loop') :
    ∃ call opt, getopt posixlyCorrect loop.getopt loop.margv = .ok call ∧ call.opt = some opt ∧
      opt ≠ '?' ∧ loop'.getopt = call.state ∧ loop'.margv = call.argv := by
  cases hcall : getopt posixlyCorrect loop.getopt loop.margv with
  | error fault =>
      rw [optionBody, hcall] at h
      cases h
  | ok call =>
      cases hopt : call.opt with
      | none =>
          rw [optionBody_finished hcall hopt] at h
          cases h
      | some opt =>
          refine ⟨call, opt, rfl, hopt, ?_, ?_⟩
          · rintro rfl
            rw [optionBody_rejected hcall hopt] at h
            cases h
          · have hstore : ∀ set, storeNumber call set = .inl loop' →
                loop'.getopt = call.state ∧ loop'.margv = call.argv := by
              intro set hstore
              unfold storeNumber at hstore
              split at hstore
              · cases hstore
              · split at hstore
                · cases hstore
                · obtain rfl := Sum.inl.inj hstore
                  exact ⟨rfl, rfl⟩
            simp only [optionBody, hcall, hopt] at h
            split_ifs at h
            · exact hstore _ h
            · exact hstore _ h
            · exact hstore _ h
            · obtain rfl := Sum.inl.inj h
              exact ⟨rfl, rfl⟩

theorem LoopArranged.step (h : LoopArranged opts others loop)
    (hbody : optionBody false loop = .inl loop') : LoopArranged opts others loop' := by
  obtain ⟨call, opt, hcall, hopt, hne, hgetopt, hmargv⟩ := exists_call_of_optionBody hbody
  obtain ⟨s, cluster, args, hsame, hat, harranged⟩ := h
  rw [hsame] at hcall
  obtain ⟨call', hcall', hstep⟩ := hat.getopt false
  obtain rfl : call = call' := Except.ok.inj (hcall.symm.trans hcall')
  rw [LoopArranged, hgetopt, hmargv]
  cases hstep with
  | finished n hnone => cases hopt.symm.trans hnone
  | rejected hrejected => exact absurd (Option.some.inj (hopt.symm.trans hrejected)) hne
  | option e n cluster' args' hscan hsize hreturned hstate hoptind hscanned =>
      refine ⟨call.state, cluster', args', rfl, hstate, ?_⟩
      cases harranged.getopt hat hcall with
      | finished hnone => cases hopt.symm.trans hnone
      | rejected hrejected => exact absurd (Option.some.inj (hopt.symm.trans hrejected)) hne
      | option c cluster'' args'' hsome hchars harranged' =>
          exact harranged'.unique hchars hstate

end Loop

/-- The first call begins behind the program's name. -/
theorem loopArranged_fresh (name : List Char) (args : Argv) (input : ProgramInput) :
    LoopArranged (name :: (elements [] ("scan".toList :: args)).1)
      (elements [] ("scan".toList :: args)).2
      ⟨fresh, name :: "scan".toList :: args, input⟩ := by
  refine ⟨passed 1, [], "scan".toList :: args, ?_, ?_, ?_⟩
  · exact getopt_fresh (Nat.succ_pos _)
  · exact at_passed Nat.one_pos (Nat.succ_pos _)
  · exact ⟨[name], [], [], rfl, rfl, rfl, rfl, rfl, rfl⟩

/-- **The vector of an option loop.** At every iteration it holds the elements
that it has held at the beginning; when no option is left, the elements of the
options stand behind the program's name in their order, those that are none
behind them in theirs, and `optind` is where these begin. -/
theorem optionLoop_arranges (name : List Char) (args : Argv) (input : ProgramInput)
    {loop : OptionLoop}
    (hreach : BoundedLoop.Reachable (optionBody false)
      ⟨fresh, condenseFlags (name :: "scan".toList :: args), input⟩ loop) :
    loop.margv.Perm (condenseFlags (name :: "scan".toList :: args)) ∧
      ∀ call, getopt false loop.getopt loop.margv = .ok call → call.opt = none →
        call.argv = condenseFlag name :: (elements [] (condenseFlags args)).1 ++
            "scan".toList :: (elements [] (condenseFlags args)).2 ∧
          call.state.optind = (elements [] (condenseFlags args)).1.length + 1 := by
  rw [condenseFlags_scan] at hreach ⊢
  have harranged := hreach.invariant _ (fun _ _ h hbody => LoopArranged.step h hbody)
    (loopArranged_fresh (condenseFlag name) (condenseFlags args) input)
  obtain ⟨s, cluster, rest, hsame, hat, hparts⟩ := harranged
  rw [elements_nonoption rfl] at hparts
  refine ⟨?_, ?_⟩
  · refine hparts.perm.trans (List.Perm.trans ?_ ((elements_perm [] _).cons _).symm)
    rw [elements_nonoption rfl, List.cons_append]
  · intro call hcall hopt
    rw [hsame] at hcall
    cases hparts.getopt hat hcall with
    | finished hnone hargv hoptind => exact ⟨hargv, hoptind⟩
    | rejected hrejected => cases hopt.symm.trans hrejected
    | option c cluster' args' hsome => cases hopt.symm.trans hsome

/-- The words of a scan with an option between its operands. -/
def mixedLine : Argv := ["105M".toList, "--timeout".toList, "5".toList, "fm".toList]

theorem elements_mixedLine :
    elements [] (condenseFlags mixedLine) =
      (["-t".toList, "5".toList], ["105M".toList, "fm".toList]) := by
  have hcondense : condenseFlags mixedLine =
      ["105M".toList, "-t".toList, "5".toList, "fm".toList] := by decide
  have hcluster : elements [] ["-t".toList, "5".toList, "fm".toList] = _ :=
    elements_cluster (by decide) _
  rw [hcondense, elements_nonoption rfl, hcluster, elements_separate rfl, elements_nonoption rfl,
    elements_nil]
  rfl

/-- When the loop has read the option, the next call ends the scan. -/
theorem optionLoop_arranges_mixedLine :
    ∃ (loop : OptionLoop) (call : Call),
      loop.margv.Perm (condenseFlags ("rcs".toList :: "scan".toList :: mixedLine)) ∧
      getopt false loop.getopt loop.margv = .ok call ∧ call.opt = none ∧
      call.argv = "rcs".toList :: ["-t".toList, "5".toList] ++
          "scan".toList :: ["105M".toList, "fm".toList] ∧ call.state.optind = 3 := by
  have hbody : optionBody false
      ⟨fresh, condenseFlags ("rcs".toList :: "scan".toList :: mixedLine), defaultProgramInput⟩ =
    .inl ⟨{ passed 5 with lastNonopt := 3 },
      condenseFlags ("rcs".toList :: "scan".toList :: mixedLine),
      { defaultProgramInput with timeout := 5 }⟩ := by
    decide +kernel
  have hend : (getopt false { passed 5 with lastNonopt := 3 }
      (condenseFlags ("rcs".toList :: "scan".toList :: mixedLine))).toOption.any
        (fun call => call.opt = none) = true := by
    decide +kernel
  obtain ⟨call, hcall, hopt⟩ : ∃ call, getopt false { passed 5 with lastNonopt := 3 }
      (condenseFlags ("rcs".toList :: "scan".toList :: mixedLine)) = .ok call ∧
        call.opt = none := by
    cases hcall : getopt false { passed 5 with lastNonopt := 3 }
        (condenseFlags ("rcs".toList :: "scan".toList :: mixedLine)) with
    | error fault =>
        rw [hcall] at hend
        cases hend
    | ok call =>
        rw [hcall] at hend
        exact ⟨call, rfl, of_decide_eq_true hend⟩
  obtain ⟨hperm, hnone⟩ := optionLoop_arranges "rcs".toList mixedLine defaultProgramInput
    (Relation.ReflTransGen.single hbody)
  obtain ⟨hargv, hoptind⟩ := hnone call hcall hopt
  rw [elements_mixedLine] at hargv hoptind
  exact ⟨_, call, hperm, hcall, hopt, hargv, hoptind⟩

end RadioChatter.Input
