import Mathlib.Data.List.Basic

/-!
`getopt` as `getopt.c` implements it, for the option string of
`check_scan_command` and without long options.

The variables it keeps between its calls are a state, and the vector it
permutes is passed along. An index outside of the vector and a character of a
string that has been freed are faults.
-/

namespace RadioChatter.Getopt

inductive Fault
  | pastArgv
  | freed
  deriving DecidableEq, Repr

/-- The arguments of `main`, where a character stands for one byte. -/
abbrev Argv := List (List Char)

/-- Where `nextchar` points. A string may belong to a vector of an earlier scan
that has never been freed. -/
inductive Pointer
  | null
  | into (leaked : Bool) (rest : List Char)
  | freed
  deriving DecidableEq, Repr

/-- How options and other elements may be mixed; the option string never asks
for `RETURN_IN_ORDER`. -/
inductive Order
  | requireOrder
  | permute
  deriving DecidableEq, Repr

/-- The static variables of `getopt.c`. What has gone to `stderr` is kept for the
record; `opterr` is never set. -/
structure State where
  optind : ℕ
  initialized : Bool
  nextchar : Pointer
  firstNonopt : ℕ
  lastNonopt : ℕ
  ordering : Order
  printed : List (List Char)
  deriving DecidableEq, Repr

/-- The state in which the program starts. -/
def fresh : State where
  optind := 1
  initialized := false
  nextchar := .null
  firstNonopt := 0
  lastNonopt := 0
  ordering := .requireOrder
  printed := []

/-- `"vt:h:c:"`. -/
def optstring : List Char := ['v', 't', ':', 'h', ':', 'c', ':']

inductive Kind
  | unknown
  | flag
  | argument
  deriving DecidableEq, Repr

/-- What the option string says of a character, by what follows it there. -/
def kindOf (c : Char) : Kind :=
  if c = ':' then .unknown
  else
    match optstring.dropWhile (· ≠ c) with
    | [] => .unknown
    | _ :: ':' :: _ => .argument
    | _ => .flag

/-- What one call returns, `none` for -1, with `optarg` and the state and the
vector after it. -/
structure Call where
  opt : Option Char
  optarg : Option (List Char)
  state : State
  argv : Argv
  deriving DecidableEq, Repr

/-- `argv[i]`. -/
def element (argv : Argv) (i : ℕ) : Except Fault (List Char) :=
  match argv[i]? with
  | some arg => .ok arg
  | none => .error .pastArgv

def swap (i j : ℕ) (argv : Argv) : Except Fault Argv :=
  match argv[i]?, argv[j]? with
  | some x, some y => .ok ((argv.set i y).set j x)
  | _, _ => .error .pastArgv

/-- The `for` loops of `exchange`. -/
def swapSegments (bottom other len : ℕ) (argv : Argv) : Except Fault Argv :=
  (List.range len).foldlM (fun argv i => swap (bottom + i) (other + i) argv) argv

/-- The `while` loop of `exchange`. -/
def exchangeLoop (bottom middle top : ℕ) (argv : Argv) : Except Fault Argv :=
  if middle < top ∧ bottom < middle then
    if middle - bottom < top - middle then
      -- The bottom segment is the short one.
      (swapSegments bottom (top - (middle - bottom)) (middle - bottom) argv).bind
        (exchangeLoop bottom middle (top - (middle - bottom)))
    else
      (swapSegments bottom middle (top - middle) argv).bind
        (exchangeLoop (bottom + (top - middle)) middle top)
  else .ok argv
termination_by top - bottom

/-- `exchange`. -/
def exchange (s : State) (argv : Argv) : Except Fault (State × Argv) :=
  (exchangeLoop s.firstNonopt s.lastNonopt s.optind argv).map fun argv =>
    ({ s with
      firstNonopt := s.firstNonopt + (s.optind - s.lastNonopt)
      lastNonopt := s.optind }, argv)

/-- `_getopt_initialize`, with the assignment before it. -/
def getoptInitialize (posixlyCorrect : Bool) (s : State) : State :=
  let optind := if s.optind = 0 then 1 else s.optind
  { optind := optind
    initialized := true
    nextchar := .null
    firstNonopt := optind
    lastNonopt := optind
    ordering := if posixlyCorrect then .requireOrder else .permute
    printed := s.printed }

/-- `NONOPTION_P`. -/
def nonoption : List Char → Bool
  | '-' :: _ :: _ => false
  | _ => true

/-- `FIRST_NONOPT` and `LAST_NONOPT` get rational values. -/
def clamp (s : State) : State :=
  { s with
    firstNonopt := min s.firstNonopt s.optind
    lastNonopt := min s.lastNonopt s.optind }

/-- The options that were processed since elements were skipped move in front
of these. -/
def bringForward (s : State) (argv : Argv) : Except Fault (State × Argv) :=
  if s.firstNonopt ≠ s.lastNonopt ∧ s.lastNonopt ≠ s.optind then exchange s argv
  else if s.lastNonopt ≠ s.optind then .ok ({ s with firstNonopt := s.optind }, argv)
  else .ok (s, argv)

/-- The elements that are no options are skipped. -/
def skipNonoptions (s : State) (argv : Argv) : Except Fault (State × Argv) :=
  if s.ordering = .permute then do
    let (s, argv) ← bringForward s argv
    let optind := s.optind + ((argv.drop s.optind).takeWhile nonoption).length
    .ok ({ s with optind := optind, lastNonopt := optind }, argv)
  else .ok (s, argv)

/-- The element `--` ends the options. -/
def endOfOptions (s : State) (argv : Argv) : Except Fault (State × Argv) :=
  if s.optind = argv.length then .ok (s, argv)
  else do
    let arg ← element argv s.optind
    if arg = ['-', '-'] then do
      let s := { s with optind := s.optind + 1 }
      let (s, argv) ←
        if s.firstNonopt ≠ s.lastNonopt ∧ s.lastNonopt ≠ s.optind then exchange s argv
        else if s.firstNonopt = s.lastNonopt then .ok ({ s with firstNonopt := s.optind }, argv)
        else .ok (s, argv)
      .ok ({ s with lastNonopt := argv.length, optind := argv.length }, argv)
    else .ok (s, argv)

/-- The line about an unknown option. The standard asks for other words than those
that are in use; `posixly_correct` is set where the order is required. -/
def unknownText (s : State) (argv : Argv) (c : Char) : List Char :=
  argv.headD [] ++
    (if s.ordering = .requireOrder then ": illegal option -- ".toList
      else ": invalid option -- ".toList) ++ [c, '\n']

/-- The line about an option without its argument. -/
def missingText (argv : Argv) (c : Char) : List Char :=
  argv.headD [] ++ ": option requires an argument -- ".toList ++ [c, '\n']

def State.print (s : State) (text : List Char) : State := { s with printed := s.printed ++ [text] }

/-- The short option `c`, in front of the rest of its element. -/
def decode (s : State) (argv : Argv) (leaked : Bool) (c : Char) (rest : List Char) :
    Except Fault Call :=
  let s := { s with
    nextchar := .into leaked rest
    optind := if rest = [] then s.optind + 1 else s.optind }
  match kindOf c with
  | .unknown => .ok ⟨some '?', none, s.print (unknownText s argv c), argv⟩
  | .flag => .ok ⟨some c, none, s, argv⟩
  | .argument =>
      let s := { s with nextchar := .null }
      if rest ≠ [] then .ok ⟨some c, some rest, { s with optind := s.optind + 1 }, argv⟩
      else if s.optind = argv.length then
        .ok ⟨some '?', none, s.print (missingText argv c), argv⟩
      else do
        let arg ← element argv s.optind
        .ok ⟨some c, some arg, { s with optind := s.optind + 1 }, argv⟩

/-- The next element, as an option or as the end of the scan. -/
def advance (s : State) (argv : Argv) : Except Fault Call := do
  let (s, argv) ← skipNonoptions (clamp s) argv
  let (s, argv) ← endOfOptions s argv
  if s.optind = argv.length then
    let optind := if s.firstNonopt ≠ s.lastNonopt then s.firstNonopt else s.optind
    .ok ⟨none, none, { s with optind := optind }, argv⟩
  else
    match ← element argv s.optind with
    | '-' :: c :: rest => decode s argv false c rest
    | arg =>
        if s.ordering = .requireOrder then .ok ⟨none, none, s, argv⟩
        else .ok ⟨some (Char.ofNat 1), some arg, { s with optind := s.optind + 1 }, argv⟩

/-- `_getopt_internal`. -/
def getopt (posixlyCorrect : Bool) (s : State) (argv : Argv) : Except Fault Call :=
  if argv.length < 1 then .ok ⟨none, none, s, argv⟩
  else
    let s := if s.optind = 0 ∨ s.initialized = false then getoptInitialize posixlyCorrect s else s
    match s.nextchar with
    | .freed => .error .freed
    | .into leaked (c :: rest) => decode s argv leaked c rest
    | _ => advance s argv

/-! ### Exchanging segments -/

/-- The vector has been permuted in front of `top` only. -/
structure Permuted (top : ℕ) (argv argv' : Argv) : Prop where
  length : argv'.length = argv.length
  drop : argv'.drop top = argv.drop top

namespace Permuted

variable {top : ℕ} {argv argv' argv'' : Argv}

theorem refl (top : ℕ) (argv : Argv) : Permuted top argv argv := ⟨rfl, rfl⟩

theorem trans (h : Permuted top argv argv') (h' : Permuted top argv' argv'') :
    Permuted top argv argv'' :=
  ⟨h'.length.trans h.length, h'.drop.trans h.drop⟩

theorem swap {i j : ℕ} (hi : i < top) (hj : j < top) (htop : top ≤ argv.length) :
    ∃ argv', Getopt.swap i j argv = .ok argv' ∧ Permuted top argv argv' := by
  have hx : argv[i]? = some argv[i] := List.getElem?_eq_getElem (by omega)
  have hy : argv[j]? = some argv[j] := List.getElem?_eq_getElem (by omega)
  refine ⟨(argv.set i argv[j]).set j argv[i], by rw [Getopt.swap, hx, hy], ?_, ?_⟩
  · rw [List.length_set, List.length_set]
  · rw [List.drop_set_of_lt hj, List.drop_set_of_lt hi]

theorem swapSegments (bottom other len : ℕ) (hbottom : bottom + len ≤ top)
    (hother : other + len ≤ top) (htop : top ≤ argv.length) :
    ∃ argv', Getopt.swapSegments bottom other len argv = .ok argv' ∧ Permuted top argv argv' := by
  have hfold : ∀ l : List ℕ, (∀ i ∈ l, i < len) → ∀ argv : Argv, top ≤ argv.length →
      ∃ argv', l.foldlM (fun argv i => Getopt.swap (bottom + i) (other + i) argv) argv =
        .ok argv' ∧ Permuted top argv argv' := by
    intro l
    induction l with
    | nil =>
        intro _ argv _
        exact ⟨argv, rfl, refl top argv⟩
    | cons i l ih =>
        intro hl argv htop
        have hi : i < len := hl i (by simp)
        obtain ⟨argv₁, hswap, h₁⟩ := swap (i := bottom + i) (j := other + i)
          (by omega) (by omega) htop
        obtain ⟨argv₂, hrest, h₂⟩ := ih (fun j hj => hl j (by simp [hj])) argv₁
          (by rw [h₁.length]; exact htop)
        refine ⟨argv₂, ?_, h₁.trans h₂⟩
        rw [List.foldlM_cons, hswap]
        exact hrest
  exact hfold (List.range len) (fun i hi => List.mem_range.mp hi) argv htop

theorem exchangeLoop (bottom middle t : ℕ) (ht : t ≤ top) (htop : top ≤ argv.length) :
    ∃ argv', Getopt.exchangeLoop bottom middle t argv = .ok argv' ∧ Permuted top argv argv' := by
  induction bottom, t, argv using Getopt.exchangeLoop.induct middle with
  | case1 bottom t argv hsegments hshort ih =>
      obtain ⟨argv₁, hswap, h₁⟩ := swapSegments bottom (t - (middle - bottom)) (middle - bottom)
        (by omega) (by omega) htop
      obtain ⟨argv₂, hloop, h₂⟩ := ih argv₁ (by omega) (by rw [h₁.length]; exact htop)
      refine ⟨argv₂, ?_, h₁.trans h₂⟩
      rw [Getopt.exchangeLoop, if_pos hsegments, if_pos hshort, hswap]
      exact hloop
  | case2 bottom t argv hsegments hshort ih =>
      obtain ⟨argv₁, hswap, h₁⟩ := swapSegments bottom middle (t - middle) (by omega) (by omega)
        htop
      obtain ⟨argv₂, hloop, h₂⟩ := ih argv₁ ht (by rw [h₁.length]; exact htop)
      refine ⟨argv₂, ?_, h₁.trans h₂⟩
      rw [Getopt.exchangeLoop, if_pos hsegments, if_neg hshort, hswap]
      exact hloop
  | case3 bottom t argv hsegments =>
      refine ⟨argv, ?_, refl top argv⟩
      rw [Getopt.exchangeLoop, if_neg hsegments]

end Permuted

/-- Exchanging inside the vector is defined, and permutes what is in front of
`optind`. -/
theorem exchange_eq_ok {s : State} {argv : Argv} (h : s.optind ≤ argv.length) :
    ∃ argv', Permuted s.optind argv argv' ∧ exchange s argv = .ok ({ s with
      firstNonopt := s.firstNonopt + (s.optind - s.lastNonopt)
      lastNonopt := s.optind }, argv') := by
  obtain ⟨argv', hloop, hpermuted⟩ :=
    Permuted.exchangeLoop s.firstNonopt s.lastNonopt s.optind (Nat.le_refl _) h
  exact ⟨argv', hpermuted, by rw [exchange, hloop, Except.map]⟩

/-- What is in front of `optind` is rearranged, and what is behind it stays. -/
theorem bringForward_eq_ok {s : State} {argv : Argv} (h : s.optind ≤ argv.length) :
    ∃ first last argv', Permuted s.optind argv argv' ∧
      bringForward (clamp s) argv =
        .ok ({ s with firstNonopt := first, lastNonopt := last }, argv') ∧
      (s.firstNonopt < s.lastNonopt → s.lastNonopt ≤ s.optind →
        first = s.firstNonopt + (s.optind - s.lastNonopt)) := by
  unfold bringForward
  split
  · obtain ⟨argv', hpermuted, hexchange⟩ := exchange_eq_ok (s := clamp s) h
    refine ⟨_, _, argv', hpermuted, hexchange, ?_⟩
    intro hlt hle
    simp only [clamp]
    omega
  next hsegments =>
    split
    next hlast =>
      refine ⟨s.optind, min s.lastNonopt s.optind, argv, .refl _ argv, rfl, ?_⟩
      intro hlt hle
      simp only [clamp] at hsegments hlast
      omega
    next hlast =>
      refine ⟨min s.firstNonopt s.optind, min s.lastNonopt s.optind, argv, .refl _ argv, rfl, ?_⟩
      intro hlt hle
      simp only [clamp] at hlast
      omega

end RadioChatter.Getopt
