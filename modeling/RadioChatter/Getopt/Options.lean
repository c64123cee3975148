import RadioChatter.Getopt.Scanner
import RadioChatter.Lib.Checked
import Mathlib.Algebra.Order.Ring.Nat

/-!
The options of a vector, read once from left to right, and how the calls of
`getopt` follow them.

The reading knows nothing of the permutation: elements that are no options are
passed over. A call that is made between two elements or inside one returns
what comes next in this reading, or it ends the scan where the reading ends.
-/

namespace RadioChatter.Getopt

/-- An option, with its argument if it takes one; `bad` is an unknown option or
one whose argument is missing. -/
inductive Event
  | flag (c : Char)
  | argument (c : Char) (arg : List Char)
  | bad
  deriving DecidableEq, Repr

/-- The options that were read, and how many elements they and `--` take up. -/
structure Scan where
  events : List Event
  used : ℕ
  deriving DecidableEq, Repr

def Scan.cons (e : Event) (n : ℕ) (r : Scan) : Scan := ⟨e :: r.events, n + r.used⟩

/-- Read the options from inside an element, of which `cluster` is left, or
from the elements behind it. -/
def scanFrom : List Char → Argv → Scan
  | [], [] => ⟨[], 0⟩
  | [], arg :: args =>
      if arg = ['-', '-'] then ⟨[], 1⟩
      else
        match arg with
        | '-' :: c :: rest => scanFrom (c :: rest) args
        | _ => scanFrom [] args
  | c :: rest, args =>
      match kindOf c with
      | .unknown => ⟨[.bad], 0⟩
      | .flag => (scanFrom rest args).cons (.flag c) (if rest = [] then 1 else 0)
      | .argument =>
          if rest ≠ [] then (scanFrom [] args).cons (.argument c rest) 1
          else
            match args with
            | [] => ⟨[.bad], 0⟩
            | arg :: args => (scanFrom [] args).cons (.argument c arg) 2
termination_by cluster args => (args.length, cluster.length)

theorem kindOf_eq (c : Char) :
    kindOf c =
      if c = 'v' then .flag else if c = 't' ∨ c = 'h' ∨ c = 'c' then .argument else .unknown := by
  unfold kindOf optstring
  by_cases hv : c = 'v'
  · subst hv
    rfl
  by_cases ht : c = 't'
  · subst ht
    rfl
  by_cases hh : c = 'h'
  · subst hh
    rfl
  by_cases hc : c = 'c'
  · subst hc
    rfl
  by_cases hcolon : c = ':'
  · simp [hcolon]
  simp [List.dropWhile, hv, ht, hh, hc, hcolon, Ne.symm hv, Ne.symm ht, Ne.symm hh, Ne.symm hc,
    Ne.symm hcolon]

/-! ### Equations of the reading -/

@[simp] theorem scanFrom_nil : scanFrom [] [] = ⟨[], 0⟩ := by rw [scanFrom]

@[simp] theorem scanFrom_dashes (args : Argv) : scanFrom [] (['-', '-'] :: args) = ⟨[], 1⟩ := by
  rw [scanFrom, if_pos rfl]

@[simp] theorem scanFrom_nonoption {arg : List Char} (h : nonoption arg = true) (args : Argv) :
    scanFrom [] (arg :: args) = scanFrom [] args := by
  have hshape : ∀ c rest, arg = '-' :: c :: rest → False := by
    rintro c rest rfl
    cases h
  have hdashes : arg ≠ ['-', '-'] := fun heq => hshape '-' [] heq
  rw [scanFrom, if_neg hdashes]
  exact hshape

theorem scanFrom_cluster {c : Char} {rest : List Char} (h : '-' :: c :: rest ≠ ['-', '-'])
    (args : Argv) : scanFrom [] (('-' :: c :: rest) :: args) = scanFrom (c :: rest) args := by
  rw [scanFrom, if_neg h]

theorem scanFrom_unknown {c : Char} (h : kindOf c = .unknown) (rest : List Char) (args : Argv) :
    scanFrom (c :: rest) args = ⟨[.bad], 0⟩ := by
  rw [scanFrom.eq_def]
  simp only [h]

theorem scanFrom_flag {c : Char} (h : kindOf c = .flag) (rest : List Char) (args : Argv) :
    scanFrom (c :: rest) args =
      (scanFrom rest args).cons (.flag c) (if rest = [] then 1 else 0) := by
  rw [scanFrom.eq_def]
  simp only [h]

theorem scanFrom_attached {c : Char} (h : kindOf c = .argument) {rest : List Char}
    (hrest : rest ≠ []) (args : Argv) :
    scanFrom (c :: rest) args = (scanFrom [] args).cons (.argument c rest) 1 := by
  rw [scanFrom.eq_def]
  simp only [h]
  exact if_pos hrest

theorem scanFrom_separate {c : Char} (h : kindOf c = .argument) (arg : List Char) (args : Argv) :
    scanFrom [c] (arg :: args) = (scanFrom [] args).cons (.argument c arg) 2 := by
  rw [scanFrom.eq_def]
  simp only [h]
  rfl

theorem scanFrom_missing {c : Char} (h : kindOf c = .argument) :
    scanFrom [c] [] = ⟨[.bad], 0⟩ := by
  rw [scanFrom.eq_def]
  simp only [h]
  rfl

/-- Inside an element there is something to read. -/
theorem events_scanFrom_cons_ne (c : Char) (rest : List Char) (args : Argv) :
    (scanFrom (c :: rest) args).events ≠ [] := by
  cases hkind : kindOf c with
  | unknown =>
      rw [scanFrom_unknown hkind]
      nofun
  | flag =>
      rw [scanFrom_flag hkind]
      nofun
  | argument =>
      by_cases hrest : rest = []
      · subst hrest
        cases args with
        | nil =>
            rw [scanFrom_missing hkind]
            nofun
        | cons arg args =>
            rw [scanFrom_separate hkind]
            nofun
      · rw [scanFrom_attached hkind hrest]
        nofun

/-- Elements that are no options are passed over. -/
@[simp] theorem scanFrom_dropWhile (args : Argv) :
    scanFrom [] (args.dropWhile nonoption) = scanFrom [] args := by
  induction args with
  | nil => rfl
  | cons arg args ih =>
      by_cases h : nonoption arg = true
      · rw [List.dropWhile_cons_of_pos h, ih, scanFrom_nonoption h]
      · rw [List.dropWhile_cons_of_neg h]

/-! ### The states of a scan -/

def Pointer.chars : Pointer → Option (List Char)
  | .null => some []
  | .into _ rest => some rest
  | .freed => none

/-- Whether `optind` still counts the element that is being read. -/
def pending : List Char → ℕ
  | [] => 0
  | _ :: _ => 1

/-- The scan is inside an element, of which `cluster` is left, or between two
of them, and `args` are the elements behind. -/
structure At (s : State) (argv : Argv) (cluster : List Char) (args : Argv) : Prop where
  initialized : s.initialized = true
  positive : 0 < s.optind
  permute : s.ordering = .permute
  nextchar : s.nextchar.chars = some cluster
  rest : argv.drop (s.optind + pending cluster) = args
  le : s.optind + pending cluster ≤ argv.length

/-- A scan that began with the first element and has passed over at least one:
`used` elements in front of `optind` belong to options. -/
structure Scanned (s : State) (used : ℕ) : Prop where
  lt : s.firstNonopt < s.lastNonopt
  le : s.lastNonopt ≤ s.optind
  used : s.firstNonopt + (s.optind - s.lastNonopt) = 1 + used
  own : ∀ rest, s.nextchar ≠ .into true rest

/-- An upper bound for the calls that are left. -/
def size (cluster : List Char) (args : Argv) : ℕ := cluster.length + (args.map List.length).sum

/-- The call returns this option. -/
def Event.Returned (cluster : List Char) (call : Call) : Event → Prop
  | .flag c => kindOf c = .flag ∧ call.opt = some c ∧
      ∃ leaked, call.state.nextchar = .into leaked cluster
  | .argument c arg => kindOf c = .argument ∧ call.opt = some c ∧ call.optarg = some arg ∧
      call.state.nextchar = .null
  | .bad => False

/-- What a call of `getopt` can do. -/
inductive Step (s : State) (cluster : List Char) (args : Argv) (call : Call) : Prop
  | finished (n : ℕ) (opt : call.opt = none) (scan : scanFrom cluster args = ⟨[], n⟩)
      (nextchar : call.state.nextchar = s.nextchar)
      (initialized : call.state.initialized = true) (permute : call.state.ordering = .permute)
      (optind : ∀ used, Scanned s used → call.state.optind = 1 + (used + n))
  | rejected (opt : call.opt = some '?') (scan : scanFrom cluster args = ⟨[.bad], 0⟩)
      (initialized : call.state.initialized = true) (permute : call.state.ordering = .permute)
      (rest : List Char) (nextchar : call.state.nextchar.chars = some rest)
      (optind : s.optind < call.state.optind + pending rest)
  | option (e : Event) (n : ℕ) (cluster' : List Char) (args' : Argv)
      (scan : scanFrom cluster args = (scanFrom cluster' args').cons e n)
      (size : size cluster' args' < size cluster args) (returned : e.Returned cluster' call)
      (state : At call.state call.argv cluster' args')
      (optind : s.optind < call.state.optind + pending cluster')
      (scanned : ∀ used, Scanned s used → Scanned call.state (used + n))

variable {s : State} {argv args : Argv}

theorem element_of_drop {k : ℕ} {arg : List Char} (h : argv.drop k = arg :: args) :
    element argv k = .ok arg ∧ argv.drop (k + 1) = args ∧ k < argv.length := by
  have hk : k < argv.length := by
    by_contra hle
    rw [List.drop_eq_nil_of_le (Nat.le_of_not_lt hle)] at h
    cases h
  rw [List.drop_eq_getElem_cons hk] at h
  obtain ⟨harg, hargs⟩ := List.cons.inj h
  rw [element, List.getElem?_eq_getElem hk, harg]
  exact ⟨rfl, hargs, hk⟩

theorem sum_length_cons (arg : List Char) (args : Argv) :
    ((arg :: args).map List.length).sum = arg.length + (args.map List.length).sum := by
  rw [List.map_cons, List.sum_cons]

/-- The element that is being read counts as soon as nothing is left of it. -/
@[simp] theorem optind_add_pending (optind : ℕ) (rest : List Char) :
    (if rest = [] then optind + 1 else optind) + pending rest = optind + 1 := by
  cases rest with
  | nil => rfl
  | cons c rest => rfl

theorem Scanned.advance {used : ℕ} (h : Scanned s used) {optind n : ℕ}
    (hoptind : optind = s.optind + n) {nextchar : Pointer}
    (hown : ∀ rest, nextchar ≠ .into true rest) :
    Scanned { s with nextchar := nextchar, optind := optind } (used + n) := by
  have hle := h.le
  have hused := h.used
  subst hoptind
  exact ⟨h.lt, Nat.le_add_right_of_le hle, by dsimp only; omega, hown⟩

section Decode

variable {c : Char} (leaked : Bool)

theorem decode_unknown (h : kindOf c = .unknown) (s : State) (argv : Argv) (rest : List Char) :
    Getopt.decode s argv leaked c rest = .ok ⟨some '?', none, { s with
      nextchar := .into leaked rest
      optind := if rest = [] then s.optind + 1 else s.optind
      printed := s.printed ++ [unknownText s argv c] }, argv⟩ := by
  simp only [Getopt.decode, h]
  rfl

theorem decode_flag (h : kindOf c = .flag) (s : State) (argv : Argv) (rest : List Char) :
    Getopt.decode s argv leaked c rest = .ok ⟨some c, none, { s with
      nextchar := .into leaked rest
      optind := if rest = [] then s.optind + 1 else s.optind }, argv⟩ := by
  simp only [Getopt.decode, h]

theorem decode_attached (h : kindOf c = .argument) (s : State) (argv : Argv) {rest : List Char}
    (hrest : rest ≠ []) :
    Getopt.decode s argv leaked c rest =
      .ok ⟨some c, some rest, { s with nextchar := .null, optind := s.optind + 1 }, argv⟩ := by
  simp only [Getopt.decode, h, if_pos hrest, if_neg hrest]

theorem decode_missing (h : kindOf c = .argument) {s : State} {argv : Argv}
    (hend : s.optind + 1 = argv.length) :
    Getopt.decode s argv leaked c [] =
      .ok ⟨some '?', none, { s with
        nextchar := .null
        optind := s.optind + 1
        printed := s.printed ++ [missingText argv c] }, argv⟩ := by
  simp only [Getopt.decode, h, ne_eq, not_true, if_false, if_true, hend]
  rfl

/-- The element behind is the argument, if the vector reaches that far. -/
theorem decode_separate (h : kindOf c = .argument) {s : State} {argv : Argv}
    (hend : s.optind + 1 ≠ argv.length) :
    Getopt.decode s argv leaked c [] = (element argv (s.optind + 1)).map fun arg =>
      ⟨some c, some arg, { s with nextchar := .null, optind := s.optind + 2 }, argv⟩ := by
  simp only [Getopt.decode, h, ne_eq, not_true, if_false, if_true, if_neg hend]
  cases element argv (s.optind + 1) with
  | error fault => rfl
  | ok arg => rfl

section Inside

variable {rest : List Char} (h : At s argv (c :: rest) args)

include h

theorem At.decode_flag (hpointer : s.nextchar = .into leaked (c :: rest))
    (hkind : kindOf c = .flag) :
    ∃ call, Getopt.decode s argv leaked c rest = .ok call ∧ Step s (c :: rest) args call := by
  have hle : s.optind + 1 ≤ argv.length := h.le
  have hrest : argv.drop (s.optind + 1) = args := h.rest
  have hpos := h.positive
  refine ⟨_, Getopt.decode_flag leaked hkind s argv rest,
    .option (.flag c) _ rest args (scanFrom_flag hkind rest args) ?_
      ⟨hkind, rfl, leaked, rfl⟩ ⟨h.initialized, ?_, h.permute, rfl, ?_, ?_⟩ ?_ ?_⟩
  · rw [size, size, List.length_cons]
    omega
  · dsimp only
    split <;> omega
  · dsimp only
    rw [optind_add_pending]
    exact hrest
  · dsimp only
    rw [optind_add_pending]
    exact hle
  · dsimp only
    rw [optind_add_pending]
    exact Nat.lt_succ_self _
  · intro used hscanned
    apply hscanned.advance
    · split <;> rfl
    · rintro rest' hinto
      obtain ⟨rfl, -⟩ := Pointer.into.inj hinto
      exact hscanned.own _ hpointer

theorem At.decode_attached (hkind : kindOf c = .argument) (hattached : rest ≠ []) :
    ∃ call, Getopt.decode s argv leaked c rest = .ok call ∧ Step s (c :: rest) args call := by
  have hle : s.optind + 1 ≤ argv.length := h.le
  have hrest : argv.drop (s.optind + 1) = args := h.rest
  refine ⟨⟨some c, some rest, { s with nextchar := .null, optind := s.optind + 1 }, argv⟩,
    Getopt.decode_attached leaked hkind s argv hattached,
    .option (.argument c rest) 1 [] args (scanFrom_attached hkind hattached args) ?_
      ⟨hkind, rfl, rfl, rfl⟩ ⟨h.initialized, Nat.succ_pos _, h.permute, rfl, hrest, hle⟩
      (Nat.lt_succ_self _) fun used hscanned => hscanned.advance rfl nofun⟩
  rw [size, size, List.length_nil, List.length_cons]
  omega

end Inside

/-- The argument is the element behind, or it is missing. -/
theorem At.decode_separate (h : At s argv [c] args) (hkind : kindOf c = .argument) :
    ∃ call, Getopt.decode s argv leaked c [] = .ok call ∧ Step s [c] args call := by
  have hle : s.optind + 1 ≤ argv.length := h.le
  have hrest : argv.drop (s.optind + 1) = args := h.rest
  cases args with
  | nil =>
      have hend : s.optind + 1 = argv.length := by
        have hlength := List.drop_eq_nil_iff.mp hrest
        omega
      exact ⟨_, decode_missing leaked hkind hend,
        .rejected rfl (scanFrom_missing hkind) h.initialized h.permute [] rfl
          (Nat.lt_succ_self _)⟩
  | cons arg args =>
      obtain ⟨helement, hargs, hlt⟩ := element_of_drop hrest
      refine ⟨⟨some c, some arg, { s with nextchar := .null, optind := s.optind + 2 }, argv⟩,
        ?_, .option (.argument c arg) 2 [] args (scanFrom_separate hkind arg args) ?_
          ⟨hkind, rfl, rfl, rfl⟩ ⟨h.initialized, Nat.succ_pos _, h.permute, rfl, hargs, hlt⟩
          (Nat.lt_add_of_pos_right (by decide)) fun used hscanned =>
            hscanned.advance rfl nofun⟩
      · rw [Getopt.decode_separate leaked hkind (by omega), helement, Except.map]
      · rw [size, size, sum_length_cons, List.length_nil, List.length_singleton]
        omega

/-- What a call does inside an element. -/
theorem At.decode {rest : List Char} (h : At s argv (c :: rest) args)
    (hpointer : s.nextchar = .into leaked (c :: rest)) :
    ∃ call, Getopt.decode s argv leaked c rest = .ok call ∧ Step s (c :: rest) args call := by
  cases hkind : kindOf c with
  | unknown =>
      refine ⟨_, decode_unknown leaked hkind s argv rest,
        .rejected rfl (scanFrom_unknown hkind rest args) h.initialized h.permute rest rfl ?_⟩
      dsimp only
      rw [optind_add_pending]
      exact Nat.lt_succ_self _
  | flag => exact h.decode_flag leaked hpointer hkind
  | argument =>
      by_cases hattached : rest = []
      · subst hattached
        exact h.decode_separate leaked hkind
      · exact h.decode_attached leaked hkind hattached

end Decode

/-! ### Calls between two elements -/

/-- The state after the elements that are no options have been skipped. -/
structure Skipped (s : State) (argv args : Argv) (s' : State) (argv' : Argv) : Prop where
  optind : s.optind ≤ s'.optind
  last : s'.lastNonopt = s'.optind
  le : s'.optind ≤ argv'.length
  rest : argv'.drop s'.optind = args.dropWhile nonoption
  nextchar : s'.nextchar = s.nextchar
  initialized : s'.initialized = true
  permute : s'.ordering = .permute
  first : ∀ used, Scanned s used → s'.firstNonopt = 1 + used ∧ s'.firstNonopt < s'.optind

theorem At.skipNonoptions (h : At s argv [] args) :
    ∃ s' argv', Getopt.skipNonoptions (clamp s) argv = .ok (s', argv') ∧
      Skipped s argv args s' argv' := by
  have hle : s.optind ≤ argv.length := h.le
  have hrest : argv.drop s.optind = args := h.rest
  obtain ⟨first, last, argv₁, hpermuted, hbring, hfirst⟩ := bringForward_eq_ok hle
  have hdrop : argv₁.drop s.optind = args := hpermuted.drop.trans hrest
  have hlength : args.length = argv₁.length - s.optind := by rw [← hdrop, List.length_drop]
  have hsplit : (args.takeWhile nonoption).length + (args.dropWhile nonoption).length =
      args.length := by
    rw [← List.length_append, List.takeWhile_append_dropWhile]
  refine ⟨{ s with
    optind := s.optind + (args.takeWhile nonoption).length
    firstNonopt := first
    lastNonopt := s.optind + (args.takeWhile nonoption).length }, argv₁, ?_,
    ⟨Nat.le_add_right _ _, rfl, ?_, ?_, rfl, h.initialized, h.permute, ?_⟩⟩
  · unfold Getopt.skipNonoptions
    have hpermute : (clamp s).ordering = .permute := h.permute
    rw [if_pos hpermute, hbring]
    simp only [bind, Except.bind, hdrop]
  · have hlen := hpermuted.length
    dsimp only
    omega
  · calc argv₁.drop (s.optind + (args.takeWhile nonoption).length)
        = args.drop (args.takeWhile nonoption).length := by rw [← List.drop_drop, hdrop]
      _ = (args.takeWhile nonoption ++ args.dropWhile nonoption).drop
            (args.takeWhile nonoption).length := by rw [List.takeWhile_append_dropWhile]
      _ = args.dropWhile nonoption := List.drop_left
  · intro used hscanned
    have hused := hscanned.used
    have hlt := hscanned.lt
    have hle := hscanned.le
    rw [hfirst hlt hle]
    dsimp only
    omega

theorem endOfOptions_of_ne {s : State} {argv : Argv} {arg : List Char}
    (harg : element argv s.optind = .ok arg) (hdashes : arg ≠ ['-', '-']) :
    endOfOptions s argv = .ok (s, argv) := by
  unfold endOfOptions
  split
  · rfl
  · rw [harg]
    exact if_neg hdashes

/-- `--` takes one element, and everything behind it counts as skipped. -/
theorem endOfOptions_of_dashes {s : State} {argv : Argv} (hlt : s.optind < argv.length)
    (harg : element argv s.optind = .ok ['-', '-']) (hlast : s.lastNonopt = s.optind) :
    ∃ first argv', endOfOptions s argv = .ok ({ s with
        firstNonopt := first, lastNonopt := argv.length, optind := argv.length }, argv') ∧
      argv'.length = argv.length ∧
      (s.firstNonopt < s.optind → first = s.firstNonopt + 1) := by
  unfold endOfOptions
  rw [if_neg (by omega), harg]
  simp only [bind, Except.bind, if_true]
  by_cases hsegments : s.firstNonopt = s.lastNonopt
  · refine ⟨s.optind + 1, argv, ?_, rfl, by omega⟩
    rw [if_neg fun h => h.1 hsegments, if_pos hsegments]
  · obtain ⟨argv', hpermuted, hexchange⟩ :=
      exchange_eq_ok (s := { s with optind := s.optind + 1 }) hlt
    refine ⟨s.firstNonopt + 1, argv', ?_, hpermuted.length, fun _ => rfl⟩
    have hmoved : s.lastNonopt ≠ s.optind + 1 := by omega
    rw [if_pos ⟨hsegments, hmoved⟩, hexchange]
    simp only [hpermuted.length, hlast, Nat.add_sub_cancel_left]

section Advance

variable {s₁ s₂ : State} {argv₁ argv₂ : Argv}
  (hskip : Getopt.skipNonoptions (clamp s) argv = .ok (s₁, argv₁))
  (hend : endOfOptions s₁ argv₁ = .ok (s₂, argv₂))

include hskip hend

theorem advance_of_end (hoptind : s₂.optind = argv₂.length) :
    advance s argv = .ok ⟨none, none, { s₂ with
      optind := if s₂.firstNonopt ≠ s₂.lastNonopt then s₂.firstNonopt else s₂.optind }, argv₂⟩ := by
  unfold advance
  rw [hskip]
  simp only [bind, Except.bind]
  rw [hend]
  simp only [hoptind, if_true]

theorem advance_of_option {c : Char} {rest : List Char} (hlt : s₂.optind < argv₂.length)
    (harg : element argv₂ s₂.optind = .ok ('-' :: c :: rest)) :
    advance s argv = Getopt.decode s₂ argv₂ false c rest := by
  unfold advance
  rw [hskip]
  simp only [bind, Except.bind]
  rw [hend]
  simp only [if_neg (Nat.ne_of_lt hlt), harg]

end Advance

/-- The first element that is not skipped is an option. -/
theorem exists_option {arg : List Char} {args' : Argv}
    (h : args.dropWhile nonoption = arg :: args') : ∃ c rest, arg = '-' :: c :: rest := by
  have hhead : nonoption arg = false := by
    have hnot := List.head?_dropWhile_not nonoption args
    rw [h] at hnot
    simpa using hnot
  unfold nonoption at hhead
  split at hhead
  next c rest => exact ⟨c, rest, rfl⟩
  · cases hhead

theorem size_dropWhile {c : Char} {rest : List Char} {args' : Argv}
    (h : args.dropWhile nonoption = ('-' :: c :: rest) :: args') :
    size (c :: rest) args' < size [] args := by
  have hsum : ((args.takeWhile nonoption ++ args.dropWhile nonoption).map List.length).sum =
      (args.map List.length).sum := by
    rw [List.takeWhile_append_dropWhile]
  rw [h, List.map_append, List.sum_append, sum_length_cons] at hsum
  rw [size, size]
  simp only [List.length_cons, List.length_nil] at hsum ⊢
  omega

section Behind

variable {s₁ : State} {argv₁ : Argv}
  (hskip : Getopt.skipNonoptions (clamp s) argv = .ok (s₁, argv₁))
  (h₁ : Skipped s argv args s₁ argv₁)

include hskip h₁

/-- Nothing is left but elements that are no options. -/
theorem Skipped.finished (hargs : args.dropWhile nonoption = []) :
    ∃ call, Getopt.advance s argv = .ok call ∧ Step s [] args call := by
  have hle := h₁.le
  have hlast := h₁.last
  have hoptind : s₁.optind = argv₁.length := by
    have hlength := List.drop_eq_nil_iff.mp (h₁.rest.trans hargs)
    omega
  have hscan : scanFrom [] args = ⟨[], 0⟩ := by
    rw [← scanFrom_dropWhile, hargs, scanFrom_nil]
  refine ⟨_, advance_of_end hskip (if_pos hoptind) hoptind,
    .finished 0 rfl hscan h₁.nextchar h₁.initialized h₁.permute ?_⟩
  intro used hscanned
  obtain ⟨hfirst, hlt⟩ := h₁.first used hscanned
  have hne : s₁.firstNonopt ≠ s₁.lastNonopt := by omega
  exact (if_pos hne).trans hfirst

/-- The options end at `--`. -/
theorem Skipped.dashes {args' : Argv} (hargs : args.dropWhile nonoption = ['-', '-'] :: args') :
    ∃ call, Getopt.advance s argv = .ok call ∧ Step s [] args call := by
  have hlast := h₁.last
  obtain ⟨harg, -, hlt⟩ := element_of_drop (h₁.rest.trans hargs)
  obtain ⟨first, argv₂, hend, hlength, hfirst⟩ := endOfOptions_of_dashes hlt harg hlast
  have hscan : scanFrom [] args = ⟨[], 1⟩ := by
    rw [← scanFrom_dropWhile, hargs, scanFrom_dashes]
  refine ⟨_, advance_of_end hskip hend hlength.symm,
    .finished 1 rfl hscan h₁.nextchar h₁.initialized h₁.permute ?_⟩
  intro used hscanned
  obtain ⟨hused, hbefore⟩ := h₁.first used hscanned
  rw [hused] at hfirst
  have hone := hfirst (by omega)
  have hne : first ≠ argv₁.length := by omega
  exact (if_pos hne).trans (by omega)

/-- The call goes on inside the element that it has found. -/
theorem Skipped.option (hpos : 0 < s.optind) {c : Char} {rest : List Char} {args' : Argv}
    (hargs : args.dropWhile nonoption = ('-' :: c :: rest) :: args')
    (hdashes : '-' :: c :: rest ≠ ['-', '-']) :
    ∃ call, Getopt.advance s argv = .ok call ∧ Step s [] args call := by
  have hlast := h₁.last
  have hgrows := h₁.optind
  obtain ⟨harg, hargs', hlt⟩ := element_of_drop (h₁.rest.trans hargs)
  have hinside : At { s₁ with nextchar := .into false (c :: rest) } argv₁ (c :: rest) args' :=
    ⟨h₁.initialized, hpos.trans_le hgrows, h₁.permute, rfl, hargs', hlt⟩
  have hscan : scanFrom [] args = scanFrom (c :: rest) args' := by
    rw [← scanFrom_dropWhile, hargs, scanFrom_cluster hdashes]
  have hsize := size_dropWhile hargs
  have hscanned : ∀ used, Scanned s used →
      Scanned { s₁ with nextchar := .into false (c :: rest) } used := by
    intro used hscanned
    obtain ⟨hfirst, hbefore⟩ := h₁.first used hscanned
    refine ⟨by dsimp only; omega, hlast.le, by dsimp only; omega, ?_⟩
    rintro rest' ⟨⟩
  obtain ⟨call, hdecode, hstep⟩ := hinside.decode false rfl
  refine ⟨call, (advance_of_option hskip (endOfOptions_of_ne harg hdashes) hlt harg).trans
    hdecode, ?_⟩
  cases hstep with
  | finished n hopt hscan' =>
      exact absurd (congrArg Scan.events hscan') (events_scanFrom_cons_ne c rest args')
  | rejected hopt hscan' hinitialized hpermute rest' hnextchar hoptind =>
      exact .rejected hopt (hscan.trans hscan') hinitialized hpermute rest' hnextchar
        (hgrows.trans_lt hoptind)
  | option e n cluster' args'' hscan' hsize' hreturned hstate hoptind hnext =>
      exact .option e n cluster' args'' (hscan.trans hscan') (hsize'.trans hsize) hreturned
        hstate (hgrows.trans_lt hoptind) fun used hused => hnext used (hscanned used hused)

end Behind

/-- What a call does between two elements. -/
theorem At.advance (h : At s argv [] args) :
    ∃ call, Getopt.advance s argv = .ok call ∧ Step s [] args call := by
  obtain ⟨s₁, argv₁, hskip, h₁⟩ := h.skipNonoptions
  cases hargs : args.dropWhile nonoption with
  | nil => exact h₁.finished hskip hargs
  | cons arg args' =>
      obtain ⟨c, rest, rfl⟩ := exists_option hargs
      by_cases hdashes : '-' :: c :: rest = ['-', '-']
      · rw [hdashes] at hargs
        exact h₁.dashes hskip hargs
      · exact h₁.option hskip h.positive hargs hdashes

/-- **A call of `getopt`** on a vector that it can scan returns what is next. -/
theorem At.getopt {cluster : List Char} (h : At s argv cluster args) (posixlyCorrect : Bool) :
    ∃ call, Getopt.getopt posixlyCorrect s argv = .ok call ∧ Step s cluster args call := by
  have hpos := h.positive
  have hle := h.le
  have hnextchar := h.nextchar
  unfold Getopt.getopt
  rw [if_neg (by omega)]
  have hinitialized : ¬ (s.optind = 0 ∨ s.initialized = false) := by
    rw [h.initialized]
    simp
    omega
  simp only [if_neg hinitialized]
  cases hpointer : s.nextchar with
  | null =>
      rw [hpointer] at hnextchar
      obtain rfl := Option.some.inj hnextchar
      exact h.advance
  | into leaked rest =>
      rw [hpointer] at hnextchar
      obtain rfl := Option.some.inj hnextchar
      cases rest with
      | nil => exact h.advance
      | cons c rest => exact h.decode leaked hpointer
  | freed =>
      rw [hpointer] at hnextchar
      cases hnextchar

/-- A call that is made inside a string which is gone. -/
theorem getopt_freed {posixlyCorrect : Bool} (hargv : 0 < argv.length) (hoptind : 0 < s.optind)
    (hinitialized : s.initialized = true) (hfreed : s.nextchar = .freed) :
    Getopt.getopt posixlyCorrect s argv = .error .freed := by
  have hne : ¬ argv.length < 1 := by omega
  have hready : ¬ (s.optind = 0 ∨ s.initialized = false) := by
    rw [hinitialized]
    simp
    omega
  unfold Getopt.getopt
  simp only [if_neg hne, if_neg hready, hfreed]

/-- The first call of the program. -/
theorem getopt_fresh {posixlyCorrect : Bool} (hargv : 0 < argv.length) :
    Getopt.getopt posixlyCorrect fresh argv =
      Getopt.getopt posixlyCorrect (getoptInitialize posixlyCorrect fresh) argv := by
  have hne : ¬ argv.length < 1 := by omega
  unfold Getopt.getopt
  simp only [if_neg hne]
  rfl

/-! ### What is printed -/

/-- A call prints one line if it returns `'?'`, and otherwise nothing. -/
def Printed (s : State) (call : Call) : Prop :=
  if call.opt = some '?' then ∃ text, call.state.printed = s.printed ++ [text]
  else call.state.printed = s.printed

section Printed

variable {s' : State} {argv' : Argv} {call : Call}

theorem Printed.of_ne (hopt : call.opt ≠ some '?') (h : call.state.printed = s.printed) :
    Printed s call := by
  rw [Printed, if_neg hopt]
  exact h

theorem Printed.of_none (hopt : call.opt = none) (h : call.state.printed = s.printed) :
    Printed s call :=
  .of_ne (hopt ▸ (Option.some_ne_none '?').symm) h

theorem Printed.of_eq (h : Printed s' call) (hs : s'.printed = s.printed) : Printed s call := by
  rw [Printed, ← hs]
  exact h

theorem printed_of_exchange (h : exchange s argv = .ok (s', argv')) :
    s'.printed = s.printed := by
  unfold exchange at h
  cases hloop : exchangeLoop s.firstNonopt s.lastNonopt s.optind argv with
  | error fault =>
      rw [hloop] at h
      cases h
  | ok argv'' =>
      rw [hloop] at h
      cases h
      rfl

theorem printed_of_bringForward (h : bringForward s argv = .ok (s', argv')) :
    s'.printed = s.printed := by
  unfold bringForward at h
  split at h
  · exact printed_of_exchange h
  · split at h
    · cases h
      rfl
    · cases h
      rfl

theorem printed_of_skipNonoptions (h : skipNonoptions s argv = .ok (s', argv')) :
    s'.printed = s.printed := by
  unfold skipNonoptions at h
  split at h
  · obtain ⟨⟨s₁, argv₁⟩, hbring, h⟩ := Checked.bind_eq_ok.mp h
    have hprinted := printed_of_bringForward hbring
    cases h
    exact hprinted
  · cases h
    rfl

theorem printed_of_endOfOptions (h : endOfOptions s argv = .ok (s', argv')) :
    s'.printed = s.printed := by
  unfold endOfOptions at h
  split at h
  · cases h
    rfl
  obtain ⟨arg, -, h⟩ := Checked.bind_eq_ok.mp h
  split at h
  · dsimp only at h
    split at h
    · obtain ⟨⟨s₁, argv₁⟩, hexchange, h⟩ := Checked.bind_eq_ok.mp h
      have hprinted := printed_of_exchange hexchange
      cases h
      exact hprinted
    · split at h
      · cases h
        rfl
      · cases h
        rfl
  · cases h
    rfl

theorem ne_of_kindOf {c : Char} (h : kindOf c ≠ .unknown) : some c ≠ some '?' := by
  rintro ⟨⟩
  exact h rfl

theorem printed_of_decode {leaked : Bool} {c : Char} {rest : List Char}
    (h : decode s argv leaked c rest = .ok call) : Printed s call := by
  cases hkind : kindOf c with
  | unknown =>
      rw [decode_unknown leaked hkind] at h
      cases h
      exact ⟨_, rfl⟩
  | flag =>
      rw [decode_flag leaked hkind] at h
      cases h
      exact .of_ne (ne_of_kindOf (by rw [hkind]; nofun)) rfl
  | argument =>
      have hopt : some c ≠ some '?' := ne_of_kindOf (by rw [hkind]; nofun)
      by_cases hrest : rest = []
      · subst hrest
        by_cases hend : s.optind + 1 = argv.length
        · rw [decode_missing leaked hkind hend] at h
          cases h
          exact ⟨_, rfl⟩
        · rw [decode_separate leaked hkind hend] at h
          cases harg : element argv (s.optind + 1) with
          | error fault =>
              rw [harg] at h
              cases h
          | ok arg =>
              rw [harg] at h
              cases h
              exact .of_ne hopt rfl
      · rw [decode_attached leaked hkind s argv hrest] at h
        cases h
        exact .of_ne hopt rfl

theorem printed_of_advance (h : advance s argv = .ok call) : Printed s call := by
  unfold advance at h
  obtain ⟨⟨s₁, argv₁⟩, hskip, h⟩ := Checked.bind_eq_ok.mp h
  obtain ⟨⟨s₂, argv₂⟩, hend, h⟩ := Checked.bind_eq_ok.mp h
  have hskipped : s₁.printed = (clamp s).printed := printed_of_skipNonoptions hskip
  have hprinted : s₂.printed = s.printed := (printed_of_endOfOptions hend).trans hskipped
  dsimp only at h
  split at h
  · cases h
    exact .of_none rfl hprinted
  obtain ⟨arg, -, h⟩ := Checked.bind_eq_ok.mp h
  split at h
  · exact (printed_of_decode h).of_eq hprinted
  · split at h
    · cases h
      exact .of_none rfl hprinted
    · cases h
      have hopt : some (Char.ofNat 1) ≠ some '?' := by decide
      exact .of_ne hopt hprinted

theorem printed_of_getopt {posixlyCorrect : Bool} (h : getopt posixlyCorrect s argv = .ok call) :
    Printed s call := by
  unfold getopt at h
  split at h
  · cases h
    exact .of_none rfl rfl
  have hready : (if s.optind = 0 ∨ s.initialized = false then
      getoptInitialize posixlyCorrect s else s).printed = s.printed := by
    split
    · rfl
    · rfl
  dsimp only at h
  split at h
  · cases h
  · exact (printed_of_decode h).of_eq hready
  · exact (printed_of_advance h).of_eq hready

end Printed

end RadioChatter.Getopt
