import RadioChatter.Getopt.Options

/-!
How `getopt` arranges the vector.

`exchange` moves two adjacent segments past each other by swapping the shorter
one with the far end of the longer one, again and again. Whatever their lengths,
the two change places and keep their own order. So a scan leaves the elements of
the options in front, those that are none behind, and each of them where the
others of its kind stood before and after it.
-/

namespace RadioChatter.Getopt

/-! ### Swapping segments -/

theorem swap_eq_ok (A M B : Argv) (x y : List Char) :
    swap A.length (A.length + (M.length + 1)) (A ++ x :: (M ++ y :: B)) =
      .ok (A ++ y :: (M ++ x :: B)) := by
  simp [swap]

/-- Two segments of the same length, swapped element by element. -/
theorem swapSegments_eq_ok (A X M Y B : Argv) (hlength : X.length = Y.length) :
    swapSegments A.length (A.length + X.length + M.length) X.length (A ++ X ++ M ++ Y ++ B) =
      .ok (A ++ Y ++ M ++ X ++ B) := by
  have hfold : ∀ k ≤ X.length,
      (List.range k).foldlM
          (fun argv i => swap (A.length + i) (A.length + X.length + M.length + i) argv)
          (A ++ X ++ M ++ Y ++ B) =
        .ok (A ++ (Y.take k ++ X.drop k) ++ M ++ (X.take k ++ Y.drop k) ++ B) := by
    intro k hk
    induction k with
    | zero => simp [pure, Except.pure]
    | succ k ih =>
        have hX : k < X.length := hk
        have hY : k < Y.length := hlength ▸ hk
        have hi : (A ++ Y.take k).length = A.length + k := by
          rw [List.length_append, List.length_take]
          omega
        have hj : A.length + k + ((X.drop (k + 1) ++ M ++ X.take k).length + 1) =
            A.length + X.length + M.length + k := by
          simp only [List.length_append, List.length_drop, List.length_take]
          omega
        have hswap := swap_eq_ok (A ++ Y.take k) (X.drop (k + 1) ++ M ++ X.take k)
          (Y.drop (k + 1) ++ B) X[k] Y[k]
        rw [hi, hj] at hswap
        rw [List.range_succ, List.foldlM_append, ih (by omega)]
        simp only [List.foldlM_cons, List.foldlM_nil, bind, Except.bind]
        rw [List.drop_eq_getElem_cons hX, List.drop_eq_getElem_cons hY]
        simp only [List.append_assoc, List.cons_append] at hswap ⊢
        rw [hswap, List.take_succ_eq_append_getElem hX, List.take_succ_eq_append_getElem hY]
        simp only [List.append_assoc, List.cons_append, List.nil_append]
        rfl
  rw [swapSegments, hfold X.length (Nat.le_refl _), hlength]
  simp only [List.take_length, List.drop_length, List.append_nil]
  rw [← hlength, List.take_length, List.drop_length, List.append_nil]

/-- **The exchange is a rotation.** However long the two segments are, the loop
ends, stays inside the vector, and leaves each of them as it was, in the place of
the other. -/
theorem exchangeLoop_eq_ok (A L R B : Argv) :
    exchangeLoop A.length (A.length + L.length) (A.length + L.length + R.length)
      (A ++ L ++ R ++ B) = .ok (A ++ R ++ L ++ B) := by
  induction hn : L.length + R.length using Nat.strongRecOn generalizing A L R B with
  | ind n ih =>
      rw [exchangeLoop]
      by_cases hsegments : A.length + L.length < A.length + L.length + R.length ∧
          A.length < A.length + L.length
      · rw [if_pos hsegments, Nat.add_sub_cancel_left, Nat.add_sub_cancel_left]
        by_cases hshort : L.length < R.length
        · rw [if_pos hshort]
          -- `R` ends with a segment that is as long as `L`.
          obtain ⟨R₁, R₂, rfl, hR₂⟩ : ∃ R₁ R₂, R = R₁ ++ R₂ ∧ R₂.length = L.length := by
            refine ⟨R.take (R.length - L.length), R.drop (R.length - L.length),
              (List.take_append_drop _ _).symm, ?_⟩
            rw [List.length_drop]
            omega
          have hother : A.length + L.length + (R₁ ++ R₂).length - L.length =
              A.length + L.length + R₁.length := by
            rw [List.length_append]
            omega
          have hswap := swapSegments_eq_ok A L R₁ R₂ B hR₂.symm
          have hloop := ih (R₂.length + R₁.length) (by rw [List.length_append] at hn; omega)
            A R₂ R₁ (L ++ B) rfl
          rw [hR₂] at hloop
          rw [hother, ← List.append_assoc (A ++ L), hswap, Except.bind]
          simp only [List.append_assoc] at hloop ⊢
          exact hloop
        · rw [if_neg hshort]
          -- `L` begins with a segment that is as long as `R`.
          obtain ⟨L₁, L₂, rfl, hL₁⟩ : ∃ L₁ L₂, L = L₁ ++ L₂ ∧ L₁.length = R.length := by
            refine ⟨L.take R.length, L.drop R.length, (List.take_append_drop _ _).symm, ?_⟩
            rw [List.length_take]
            omega
          have hswap := swapSegments_eq_ok A L₁ L₂ R B hL₁
          have hloop := ih (L₂.length + L₁.length) (by rw [List.length_append] at hn; omega)
            (A ++ R) L₂ L₁ B rfl
          have hmiddle : A.length + L₁.length + L₂.length = A.length + (L₁ ++ L₂).length := by
            rw [List.length_append, Nat.add_assoc]
          rw [hmiddle, hL₁] at hswap
          rw [← List.append_assoc A, hswap, Except.bind]
          have hbottom : (A ++ R).length = A.length + R.length := List.length_append
          have htop : A.length + R.length + L₂.length + L₁.length =
              A.length + (L₁ ++ L₂).length + R.length := by
            rw [List.length_append]
            omega
          have hmiddle' : A.length + R.length + L₂.length = A.length + (L₁ ++ L₂).length := by
            rw [List.length_append]
            omega
          rw [hbottom, htop, hmiddle'] at hloop
          simp only [List.append_assoc] at hloop ⊢
          exact hloop
      · rw [if_neg hsegments]
        obtain hL | hR : L = [] ∨ R = [] := by
          rw [← List.length_eq_zero_iff, ← List.length_eq_zero_iff]
          omega
        · simp [hL]
        · simp [hR]

/-- `exchange` on a vector in its four parts. -/
theorem exchange_parts {s : State} (P N Q rest : Argv) (hfirst : s.firstNonopt = P.length)
    (hlast : s.lastNonopt = P.length + N.length)
    (hoptind : s.optind = P.length + N.length + Q.length) :
    exchange s (P ++ N ++ Q ++ rest) = .ok ({ s with
      firstNonopt := (P ++ Q).length
      lastNonopt := (P ++ Q).length + N.length }, P ++ Q ++ N ++ rest) := by
  have hmoved : P.length + (P.length + N.length + Q.length - (P.length + N.length)) =
      (P ++ Q).length := by
    rw [List.length_append]
    omega
  have hbehind : P.length + N.length + Q.length = (P ++ Q).length + N.length := by
    rw [List.length_append]
    omega
  rw [exchange, hfirst, hlast, hoptind, exchangeLoop_eq_ok, Except.map, hmoved, hbehind]

/-- **What `exchange` does to the vector**, wherever the segments are. -/
theorem exchange_rotates {s : State} {argv : Argv} (hfirst : s.firstNonopt ≤ s.lastNonopt)
    (hlast : s.lastNonopt ≤ s.optind) (hoptind : s.optind ≤ argv.length) :
    exchange s argv = .ok ({ s with
        firstNonopt := s.firstNonopt + (s.optind - s.lastNonopt)
        lastNonopt := s.optind },
      argv.take s.firstNonopt ++ (argv.drop s.lastNonopt).take (s.optind - s.lastNonopt) ++
        (argv.drop s.firstNonopt).take (s.lastNonopt - s.firstNonopt) ++ argv.drop s.optind) := by
  have hparts : argv = argv.take s.firstNonopt ++
      (argv.drop s.firstNonopt).take (s.lastNonopt - s.firstNonopt) ++
      (argv.drop s.lastNonopt).take (s.optind - s.lastNonopt) ++ argv.drop s.optind := by
    have hsegment : ∀ i j, i ≤ j → argv.take i ++ (argv.drop i).take (j - i) = argv.take j := by
      intro i j hij
      rw [← List.take_add, Nat.add_sub_cancel' hij]
    rw [hsegment _ _ hfirst, hsegment _ _ hlast, List.take_append_drop]
  have hP : (argv.take s.firstNonopt).length = s.firstNonopt := by
    rw [List.length_take]
    omega
  have hN : ((argv.drop s.firstNonopt).take (s.lastNonopt - s.firstNonopt)).length =
      s.lastNonopt - s.firstNonopt := by
    rw [List.length_take, List.length_drop]
    omega
  have hQ : ((argv.drop s.lastNonopt).take (s.optind - s.lastNonopt)).length =
      s.optind - s.lastNonopt := by
    rw [List.length_take, List.length_drop]
    omega
  have hexchange := exchange_parts (s := s) (argv.take s.firstNonopt)
    ((argv.drop s.firstNonopt).take (s.lastNonopt - s.firstNonopt))
    ((argv.drop s.lastNonopt).take (s.optind - s.lastNonopt)) (argv.drop s.optind)
    hP.symm (by omega) (by omega)
  rw [← hparts, List.length_append, hP, hN, hQ] at hexchange
  rw [hexchange]
  congr 3
  omega

/-- The segments of one and of two elements. -/
theorem exchange_rotates_three :
    exchange { fresh with firstNonopt := 1, lastNonopt := 2, optind := 4 }
        [['p'], ['a'], ['-', 't'], ['5'], ['b']] =
      .ok ({ fresh with firstNonopt := 3, lastNonopt := 4, optind := 4 },
        [['p'], ['-', 't'], ['5'], ['a'], ['b']]) :=
  exchange_rotates (by decide) (by decide) (by decide)

/-! ### The elements of the options and the others -/

/-- The elements that belong to options, with their arguments and the `--`, and
those that do not, from inside an element or from the elements behind it. What
stands behind an option that is refused is not looked at. -/
def elements : List Char → Argv → Argv × Argv
  | [], [] => ([], [])
  | [], arg :: args =>
      if arg = ['-', '-'] then ([arg], args)
      else
        match arg with
        | '-' :: c :: rest => (arg :: (elements (c :: rest) args).1, (elements (c :: rest) args).2)
        | _ => ((elements [] args).1, arg :: (elements [] args).2)
  | c :: rest, args =>
      match kindOf c with
      | .unknown => ([], args)
      | .flag => elements rest args
      | .argument =>
          if rest ≠ [] then elements [] args
          else
            match args with
            | [] => ([], [])
            | arg :: args => (arg :: (elements [] args).1, (elements [] args).2)
termination_by cluster args => (args.length, cluster.length)

@[simp] theorem elements_nil : elements [] [] = ([], []) := by rw [elements]

@[simp] theorem elements_dashes (args : Argv) :
    elements [] (['-', '-'] :: args) = ([['-', '-']], args) := by
  rw [elements, if_pos rfl]

@[simp] theorem elements_nonoption {arg : List Char} (h : nonoption arg = true) (args : Argv) :
    elements [] (arg :: args) = ((elements [] args).1, arg :: (elements [] args).2) := by
  have hshape : ∀ c rest, arg = '-' :: c :: rest → False := by
    rintro c rest rfl
    cases h
  have hdashes : arg ≠ ['-', '-'] := fun heq => hshape '-' [] heq
  rw [elements, if_neg hdashes]
  exact hshape

theorem elements_cluster {c : Char} {rest : List Char} (h : '-' :: c :: rest ≠ ['-', '-'])
    (args : Argv) :
    elements [] (('-' :: c :: rest) :: args) =
      (('-' :: c :: rest) :: (elements (c :: rest) args).1, (elements (c :: rest) args).2) := by
  rw [elements, if_neg h]

theorem elements_unknown {c : Char} (h : kindOf c = .unknown) (rest : List Char) (args : Argv) :
    elements (c :: rest) args = ([], args) := by
  rw [elements.eq_def]
  simp only [h]

theorem elements_flag {c : Char} (h : kindOf c = .flag) (rest : List Char) (args : Argv) :
    elements (c :: rest) args = elements rest args := by
  rw [elements.eq_def]
  simp only [h]

theorem elements_attached {c : Char} (h : kindOf c = .argument) {rest : List Char}
    (hrest : rest ≠ []) (args : Argv) : elements (c :: rest) args = elements [] args := by
  rw [elements.eq_def]
  simp only [h]
  exact if_pos hrest

theorem elements_separate {c : Char} (h : kindOf c = .argument) (arg : List Char) (args : Argv) :
    elements [c] (arg :: args) = (arg :: (elements [] args).1, (elements [] args).2) := by
  rw [elements.eq_def]
  simp only [h]
  rfl

theorem elements_missing {c : Char} (h : kindOf c = .argument) :
    elements [c] [] = ([], []) := by
  rw [elements.eq_def]
  simp only [h]
  rfl

/-- Elements in front that are no options belong to the others. -/
theorem elements_takeWhile (args : Argv) :
    elements [] args = ((elements [] (args.dropWhile nonoption)).1,
      args.takeWhile nonoption ++ (elements [] (args.dropWhile nonoption)).2) := by
  induction args with
  | nil => simp
  | cons arg args ih =>
      by_cases h : nonoption arg = true
      · rw [elements_nonoption h, List.dropWhile_cons_of_pos h, List.takeWhile_cons_of_pos h,
          List.cons_append, ih]
      · rw [List.dropWhile_cons_of_neg h, List.takeWhile_cons_of_neg h, List.nil_append]

/-- None is lost, and none is there twice. -/
theorem elements_perm (cluster : List Char) (args : Argv) :
    args.Perm ((elements cluster args).1 ++ (elements cluster args).2) := by
  induction cluster, args using elements.induct with
  | case1 => simp
  | case2 args => rw [elements_dashes]; simp
  | case3 args c rest hdashes ih =>
      rw [elements_cluster hdashes]
      exact ih.cons _
  | case4 arg args hdashes hshape ih =>
      have hnonoption : nonoption arg = true := by
        unfold nonoption
        split
        next c rest => exact absurd rfl (hshape c rest)
        · rfl
      rw [elements_nonoption hnonoption]
      exact (ih.cons arg).trans List.perm_middle.symm
  | case5 args c rest hkind =>
      rw [elements_unknown hkind]
      exact List.Perm.refl _
  | case6 args c rest hkind ih =>
      rw [elements_flag hkind]
      exact ih
  | case7 args c rest hkind hrest ih =>
      rw [elements_attached hkind hrest]
      exact ih
  | case8 c rest hkind hrest =>
      obtain rfl := not_not.mp hrest
      rw [elements_missing hkind]
      exact List.Perm.refl _
  | case9 c rest hkind hrest arg args ih =>
      obtain rfl := not_not.mp hrest
      rw [elements_separate hkind]
      exact ih.cons arg

/-! ### The arrangement during a scan -/

/-- In front of the elements that are left stand options that were moved there,
the others that were skipped, and options behind these. With what is left they
make up `opts` and `others`. -/
def Arranged (opts others : Argv) (s : State) (argv : Argv) (cluster : List Char) (args : Argv) :
    Prop :=
  ∃ P N Q, argv = P ++ N ++ Q ++ args ∧ s.firstNonopt = P.length ∧
    s.lastNonopt = P.length + N.length ∧
    s.optind + pending cluster = P.length + N.length + Q.length ∧
    P ++ Q ++ (elements cluster args).1 = opts ∧ N ++ (elements cluster args).2 = others

/-- What a call leaves of the arrangement. -/
inductive Arranges (opts others : Argv) (call : Call) : Prop
  | finished (opt : call.opt = none) (argv : call.argv = opts ++ others)
      (optind : call.state.optind = opts.length)
  | rejected (opt : call.opt = some '?') (argv : call.argv.Perm (opts ++ others))
  | option (c : Char) (cluster : List Char) (args : Argv) (opt : call.opt = some c)
      (nextchar : call.state.nextchar.chars = some cluster)
      (arranged : Arranged opts others call.state call.argv cluster args)

section Arranged

variable {opts others : Argv} {s : State} {argv args : Argv} {c : Char} {rest : List Char}

/-- The position of a scan says what is left of it. -/
theorem Arranged.unique {cluster cluster' : List Char} {args' : Argv}
    (h : Arranged opts others s argv cluster args) (hchars : s.nextchar.chars = some cluster)
    (hat : At s argv cluster' args') : Arranged opts others s argv cluster' args' := by
  obtain rfl : cluster = cluster' := Option.some.inj (hchars.symm.trans hat.nextchar)
  obtain ⟨P, N, Q, hargv, hfirst, hlast, hoptind, hopts, hothers⟩ := id h
  have hargs : argv.drop (s.optind + pending cluster) = args := by
    rw [hargv, hoptind]
    apply List.drop_left'
    simp only [List.length_append]
  rw [hat.rest] at hargs
  exact hargs ▸ h

/-- At any time the vector holds what it has held from the beginning. -/
theorem Arranged.perm {cluster : List Char} (h : Arranged opts others s argv cluster args) :
    argv.Perm (opts ++ others) := by
  obtain ⟨P, N, Q, rfl, -, -, -, rfl, rfl⟩ := h
  calc P ++ N ++ Q ++ args
      = P ++ (N ++ Q) ++ args := by rw [List.append_assoc P]
    List.Perm _ (P ++ (Q ++ N) ++ args) :=
        (List.perm_append_comm.append_left P).append_right args
    List.Perm _ (P ++ (Q ++ N) ++ ((elements cluster args).1 ++ (elements cluster args).2)) :=
        (elements_perm cluster args).append_left _
    List.Perm _ (P ++ Q ++ (elements cluster args).1 ++ (N ++ (elements cluster args).2)) := by
        simp only [List.append_assoc]
        refine (List.Perm.append_left P (List.Perm.append_left Q ?_))
        rw [← List.append_assoc, ← List.append_assoc]
        exact List.perm_append_comm.append_right _

/-- A short option leaves the vector as it is. -/
theorem Arranged.decode (h : Arranged opts others s argv (c :: rest) args) {leaked : Bool}
    {call : Call} (hle : s.optind + 1 ≤ argv.length) (hargs : argv.drop (s.optind + 1) = args)
    (hcall : Getopt.decode s argv leaked c rest = .ok call) : Arranges opts others call := by
  have hperm := h.perm
  obtain ⟨P, N, Q, hargv, hfirst, hlast, hoptind, hopts, hothers⟩ := h
  have hpending : pending (c :: rest) = 1 := rfl
  rw [hpending] at hoptind
  cases hkind : kindOf c with
  | unknown =>
      rw [decode_unknown leaked hkind] at hcall
      obtain rfl := Except.ok.inj hcall
      exact .rejected rfl hperm
  | flag =>
      rw [decode_flag leaked hkind] at hcall
      obtain rfl := Except.ok.inj hcall
      rw [elements_flag hkind] at hopts hothers
      refine .option c rest args rfl rfl ⟨P, N, Q, hargv, hfirst, hlast, ?_, hopts, hothers⟩
      dsimp only
      rw [optind_add_pending]
      exact hoptind
  | argument =>
      by_cases hrest : rest = []
      · subst hrest
        cases args with
        | nil =>
            have hend : s.optind + 1 = argv.length := by
              have hlength := List.drop_eq_nil_iff.mp hargs
              omega
            rw [decode_missing leaked hkind hend] at hcall
            obtain rfl := Except.ok.inj hcall
            exact .rejected rfl hperm
        | cons arg args =>
            obtain ⟨helement, -, hlt⟩ := element_of_drop hargs
            rw [decode_separate leaked hkind (by omega), helement] at hcall
            obtain rfl := Except.ok.inj hcall
            rw [elements_separate hkind] at hopts hothers
            refine .option c [] args rfl rfl ⟨P, N, Q ++ [arg], ?_, hfirst, hlast, ?_, ?_, hothers⟩
            · rw [hargv]
              simp only [List.append_assoc, List.cons_append, List.nil_append]
            · rw [List.length_append, List.length_singleton]
              dsimp only [pending]
              omega
            · rw [← hopts]
              simp only [List.append_assoc, List.cons_append, List.nil_append]
      · rw [decode_attached leaked hkind s argv hrest] at hcall
        obtain rfl := Except.ok.inj hcall
        rw [elements_attached hkind hrest] at hopts hothers
        exact .option c [] args rfl rfl ⟨P, N, Q, hargv, hfirst, hlast, hoptind, hopts, hothers⟩

/-- The options move in front of what was skipped. -/
theorem bringForward_parts (P N Q rest : Argv) (hfirst : s.firstNonopt = P.length)
    (hlast : s.lastNonopt = P.length + N.length)
    (hoptind : s.optind = P.length + N.length + Q.length) :
    ∃ last, bringForward (clamp s) (P ++ N ++ Q ++ rest) = .ok ({ s with
      firstNonopt := (P ++ Q).length, lastNonopt := last }, P ++ Q ++ N ++ rest) := by
  have hclamp : clamp s = s := by
    rw [clamp, Nat.min_eq_left (by omega), Nat.min_eq_left (by omega)]
  rw [hclamp, bringForward]
  by_cases hsegments : s.firstNonopt ≠ s.lastNonopt ∧ s.lastNonopt ≠ s.optind
  · rw [if_pos hsegments]
    exact ⟨_, exchange_parts P N Q rest hfirst hlast hoptind⟩
  · rw [if_neg hsegments]
    by_cases hmoved : s.lastNonopt ≠ s.optind
    · rw [if_pos hmoved]
      -- Nothing has been skipped.
      obtain rfl : N = [] := by
        rw [← List.length_eq_zero_iff]
        omega
      refine ⟨s.lastNonopt, ?_⟩
      rw [hoptind, List.length_append]
      simp
    · rw [if_neg hmoved]
      obtain rfl : Q = [] := by
        rw [← List.length_eq_zero_iff]
        omega
      refine ⟨s.lastNonopt, ?_⟩
      rw [List.append_nil, List.append_nil, ← hfirst]

/-- Behind the elements that are skipped, nothing but these two parts is in front. -/
theorem Arranged.skipNonoptions (h : Arranged opts others s argv [] args)
    (hpermute : s.ordering = .permute) :
    ∃ P N, Getopt.skipNonoptions (clamp s) argv = .ok ({ s with
        firstNonopt := P.length
        lastNonopt := P.length + N.length
        optind := P.length + N.length }, P ++ N ++ args.dropWhile nonoption) ∧
      P ++ (elements [] (args.dropWhile nonoption)).1 = opts ∧
      N ++ (elements [] (args.dropWhile nonoption)).2 = others := by
  obtain ⟨P, N, Q, rfl, hfirst, hlast, hoptind, hopts, hothers⟩ := h
  rw [pending, Nat.add_zero] at hoptind
  obtain ⟨last, hbring⟩ := bringForward_parts P N Q args hfirst hlast hoptind
  have hdrop : (P ++ Q ++ N ++ args).drop s.optind = args := by
    apply List.drop_left'
    simp only [List.length_append]
    omega
  have hlength : s.optind + (args.takeWhile nonoption).length =
      (P ++ Q).length + (N ++ args.takeWhile nonoption).length := by
    simp only [List.length_append]
    omega
  rw [elements_takeWhile args] at hopts hothers
  refine ⟨P ++ Q, N ++ args.takeWhile nonoption, ?_, hopts, ?_⟩
  · unfold Getopt.skipNonoptions
    have hpermute' : (clamp s).ordering = .permute := hpermute
    rw [if_pos hpermute', hbring]
    simp only [bind, Except.bind, hdrop, hlength]
    simp only [List.append_assoc, List.takeWhile_append_dropWhile]
  · rw [← hothers, List.append_assoc]

/-- The options end at `--`, which is one of their elements. -/
theorem endOfOptions_parts {s : State} (P N rest : Argv) (hfirst : s.firstNonopt = P.length)
    (hlast : s.lastNonopt = P.length + N.length) (hoptind : s.optind = P.length + N.length) :
    ∃ last, endOfOptions s (P ++ N ++ ['-', '-'] :: rest) = .ok ({ s with
        firstNonopt := P.length + 1, lastNonopt := last, optind := last },
      P ++ [['-', '-']] ++ N ++ rest) ∧ last = (P ++ [['-', '-']] ++ N ++ rest).length := by
  have hlength : (P ++ N ++ ['-', '-'] :: rest).length = P.length + N.length + rest.length + 1 := by
    simp only [List.length_append, List.length_cons]
    omega
  have helement : element (P ++ N ++ ['-', '-'] :: rest) s.optind = .ok ['-', '-'] := by
    have hget : (P ++ N ++ ['-', '-'] :: rest)[s.optind]? = some ['-', '-'] := by
      rw [hoptind, ← List.length_append, List.getElem?_append_right (Nat.le_refl _), Nat.sub_self,
        List.getElem?_cons_zero]
    rw [element, hget]
  refine ⟨_, ?_, rfl⟩
  unfold endOfOptions
  rw [if_neg (by omega), helement]
  simp only [bind, Except.bind, if_true]
  by_cases hsegments : s.firstNonopt = s.lastNonopt
  · obtain rfl : N = [] := by
      rw [← List.length_eq_zero_iff]
      omega
    rw [if_neg fun h => h.1 hsegments, if_pos hsegments, hoptind]
    simp
  · have hmoved : s.lastNonopt ≠ s.optind + 1 := by omega
    have hexchange := exchange_parts (s := { s with optind := s.optind + 1 }) P N [['-', '-']] rest
      hfirst hlast (by rw [hoptind]; rfl)
    rw [List.append_assoc, List.singleton_append] at hexchange
    rw [if_pos ⟨hsegments, hmoved⟩, hexchange]
    simp

/-- What a call between two elements does to the arrangement. -/
theorem Arranged.advance (h : Arranged opts others s argv [] args)
    (hpermute : s.ordering = .permute) {call : Call} (hcall : Getopt.advance s argv = .ok call) :
    Arranges opts others call := by
  obtain ⟨P, N, hskip, hopts, hothers⟩ := h.skipNonoptions hpermute
  have hfinished : ∀ first last : ℕ, first = opts.length → last = opts.length + others.length →
      (if first ≠ last then first else last) = opts.length := by
    intro first last hfirst hlast
    split <;> omega
  cases hargs : args.dropWhile nonoption with
  | nil =>
      rw [hargs, elements_nil] at hopts hothers
      rw [hargs, List.append_nil] at hskip
      rw [List.append_nil] at hopts hothers
      subst hopts hothers
      rw [advance_of_end hskip (if_pos (List.length_append).symm)
        (List.length_append).symm] at hcall
      obtain rfl := Except.ok.inj hcall
      exact .finished rfl rfl (hfinished _ _ rfl rfl)
  | cons arg args' =>
      obtain ⟨c, rest, rfl⟩ := exists_option hargs
      by_cases hdashes : '-' :: c :: rest = ['-', '-']
      · rw [hargs, hdashes, elements_dashes] at hopts hothers
        rw [hargs, hdashes] at hskip
        subst hopts hothers
        obtain ⟨last, hend, hlast⟩ := endOfOptions_parts
          (s := { s with
            firstNonopt := P.length
            lastNonopt := P.length + N.length
            optind := P.length + N.length }) P N args' rfl rfl rfl
        rw [advance_of_end hskip hend hlast] at hcall
        obtain rfl := Except.ok.inj hcall
        refine .finished rfl (List.append_assoc _ _ _) (hfinished _ _ ?_ ?_)
        · rw [List.length_append, List.length_singleton]
        · rw [hlast, List.append_assoc (P ++ [['-', '-']]), List.length_append]
      · rw [hargs, elements_cluster hdashes] at hopts hothers
        rw [hargs] at hskip
        have hdrop : (P ++ N ++ ('-' :: c :: rest) :: args').drop (P.length + N.length) =
            ('-' :: c :: rest) :: args' := List.drop_left' List.length_append
        obtain ⟨helement, hbehind, hlt⟩ := element_of_drop hdrop
        rw [advance_of_option hskip (endOfOptions_of_ne helement hdashes) hlt helement] at hcall
        have hinside : Arranged opts others
            { s with
              firstNonopt := P.length
              lastNonopt := P.length + N.length
              optind := P.length + N.length }
            (P ++ N ++ ('-' :: c :: rest) :: args') (c :: rest) args' := by
          refine ⟨P, N, ['-' :: c :: rest], ?_, rfl, rfl, rfl, ?_, hothers⟩
          · simp only [List.append_assoc, List.singleton_append]
          · rw [← hopts]
            simp only [List.append_assoc, List.singleton_append]
        exact hinside.decode hlt hbehind hcall

/-- **What a call of `getopt` does to the arrangement.** -/
theorem Arranged.getopt {cluster : List Char} (h : Arranged opts others s argv cluster args)
    (hat : At s argv cluster args) {posixlyCorrect : Bool} {call : Call}
    (hcall : Getopt.getopt posixlyCorrect s argv = .ok call) : Arranges opts others call := by
  have hpos := hat.positive
  have hle := hat.le
  have hnextchar := hat.nextchar
  unfold Getopt.getopt at hcall
  have hinitialized : ¬ (s.optind = 0 ∨ s.initialized = false) := by
    rw [hat.initialized]
    simp
    omega
  rw [if_neg (by omega)] at hcall
  simp only [if_neg hinitialized] at hcall
  cases hpointer : s.nextchar with
  | null =>
      rw [hpointer] at hnextchar hcall
      obtain rfl := Option.some.inj hnextchar
      exact h.advance hat.permute hcall
  | into leaked rest =>
      rw [hpointer] at hnextchar hcall
      obtain rfl := Option.some.inj hnextchar
      cases rest with
      | nil => exact h.advance hat.permute hcall
      | cons c rest => exact h.decode hle hat.rest hcall
  | freed =>
      rw [hpointer] at hnextchar
      cases hnextchar

end Arranged

end RadioChatter.Getopt
