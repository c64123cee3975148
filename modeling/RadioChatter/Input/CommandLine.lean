import RadioChatter.Input.Hertz
import RadioChatter.Input.NumericOptions
import RadioChatter.Input.SinglePrecision
import RadioChatter.Radio.Frequency

/-!
Command lines that are written out from what they mean.

Behind the mode of a scan the options may stand in any order, in any of their
spellings and as often as one likes, with other words between them. Such a line
is read as its options say one after the other, and the other words are ignored.
Conversely every configuration of a scan has a line of its own, from which it is
read back.
-/

namespace RadioChatter.Input

open BinaryFloat C99 Getopt Radio

/-! ### The words of an option -/

inductive NumberOption
  | timeout
  | holdTime
  | cycles
  deriving DecidableEq, Repr

def NumberOption.letter : NumberOption → Char
  | .timeout => 't'
  | .holdTime => 'h'
  | .cycles => 'c'

def NumberOption.name : NumberOption → List Char
  | .timeout => "--timeout".toList
  | .holdTime => "--hold-time".toList
  | .cycles => "--cycles".toList

inductive Spelling
  | short
  | long
  | attached
  deriving DecidableEq, Repr

/-- What stands behind the mode: a number, the verbose flag, or another word. -/
inductive Item
  | number (option : NumberOption) (spelling : Spelling) (n : ℤ)
  | verbose (long : Bool)
  | word (w : List Char)
  deriving DecidableEq, Repr

def Item.words : Item → Argv
  | .number option .short n => [['-', option.letter], percentD n]
  | .number option .long n => [option.name, percentD n]
  | .number option .attached n => ['-' :: option.letter :: percentD n]
  | .verbose false => ["-v".toList]
  | .verbose true => ["--verbose".toList]
  | .word w => [w]

/-- Numbers are not zero and fit in an `int`, and a word is no option. -/
def Item.WellFormed : Item → Prop
  | .number _ _ n => n ≠ 0 ∧ -2 ^ 31 ≤ n ∧ n < 2 ^ 31
  | .verbose _ => True
  | .word w => nonoption w = true

def Item.event : Item → Option Event
  | .number option _ n => some (.argument option.letter (percentD n))
  | .verbose _ => some (.flag 'v')
  | .word _ => none

/-- What an item makes of the input. -/
def Item.apply (input : ProgramInput) : Item → ProgramInput
  | .number option _ n => input.setNumber option.letter n
  | _ => input

/-! ### Printed numbers are read back -/

theorem isDigit_of_mem_toDigits {n : ℕ} {c : Char} (h : c ∈ Nat.toDigits 10 n) :
    c.isDigit = true :=
  Nat.isDigit_of_mem_toDigits (by decide) (by decide) h

theorem atoi_percentD {n : ℤ} (hzero : n ≠ 0) (hlo : -2 ^ 31 ≤ n) (hhi : n < 2 ^ 31) :
    atoi (percentD n) = n := by
  by_cases hneg : n < 0
  · have hdigits : ∀ c ∈ Nat.toDigits 10 n.natAbs, c.isDigit = true :=
      fun c hc => isDigit_of_mem_toDigits hc
    have hspace : (percentD n).dropWhile isSpace = '-' :: Nat.toDigits 10 n.natAbs := by
      rw [percentD, if_pos hneg]
      rfl
    have hsign : scanSign ('-' :: Nat.toDigits 10 n.natAbs) =
        (some true, Nat.toDigits 10 n.natAbs) := rfl
    have htake : (Nat.toDigits 10 n.natAbs).takeWhile Char.isDigit = Nat.toDigits 10 n.natAbs :=
      List.takeWhile_eq_self_iff.mpr hdigits
    have hstrtol : strtol (percentD n) = n := by
      unfold strtol
      simp only [hspace, hsign, htake, if_true, digitsValue_toDigits]
      omega
    rw [atoi, hstrtol]
    exact CInt.wrap_of_lt hlo hhi
  · obtain ⟨m, rfl⟩ := Int.eq_ofNat_of_zero_le (not_lt.mp hneg)
    have hnumeral : PositiveNumeral (Nat.toDigits 10 m) := by
      refine ⟨List.all_eq_true.mpr fun c hc => isDigit_of_mem_toDigits hc, ?_, ?_⟩
      · rw [digitsValue_toDigits]
        omega
      · rw [digitsValue_toDigits]
        omega
    rw [percentD_natCast, atoi_of_positiveNumeral hnumeral, digitsValue_toDigits]

/-- The long options begin with two dashes. -/
theorem condenseFlag_of_ne {arg : List Char} (h : ∀ rest, arg ≠ '-' :: '-' :: rest) :
    condenseFlag arg = arg := by
  have hverbose : arg ≠ "--verbose".toList := h _
  have htimeout : arg ≠ "--timeout".toList := h _
  have hholdTime : arg ≠ "--hold-time".toList := h _
  have hcycles : arg ≠ "--cycles".toList := h _
  rw [condenseFlag, if_neg hverbose, if_neg htimeout, if_neg hholdTime, if_neg hcycles]

@[simp] theorem condenseFlag_percentD (n : ℤ) : condenseFlag (percentD n) = percentD n := by
  apply condenseFlag_of_ne
  intro rest hdashes
  have hmem : '-' ∈ Nat.toDigits 10 n.natAbs := by
    unfold percentD at hdashes
    split at hdashes
    · rw [(List.cons.inj hdashes).2]
      exact List.mem_cons_self
    · rw [hdashes]
      exact List.mem_cons_self
  cases isDigit_of_mem_toDigits hmem

theorem percentD_ne_nil (n : ℤ) : percentD n ≠ [] := by
  unfold percentD
  split
  · exact List.cons_ne_nil _ _
  · exact Nat.toDigits_ne_nil

@[simp] theorem condenseFlag_of_nonoption {arg : List Char} (h : nonoption arg = true) :
    condenseFlag arg = arg := by
  apply condenseFlag_of_ne
  rintro rest rfl
  cases h

@[simp] theorem condenseFlag_name (option : NumberOption) :
    condenseFlag option.name = ['-', option.letter] := by
  cases option <;> decide

@[simp] theorem kindOf_letter (option : NumberOption) : kindOf option.letter = .argument := by
  cases option <;> rfl

theorem letter_ne_dash (option : NumberOption) : option.letter ≠ '-' := by
  cases option <;> decide

/-! ### The options of a line -/

section Words

variable (rest : Argv)

/-- An option and its argument, in two words. -/
theorem events_separate (option : NumberOption) (arg : List Char) :
    (scanFrom [] (['-', option.letter] :: arg :: rest)).events =
      .argument option.letter arg :: (scanFrom [] rest).events := by
  have hdashes : ['-', option.letter] ≠ ['-', '-'] := by
    intro heq
    exact letter_ne_dash option (List.cons.inj (List.cons.inj heq).2).1
  rw [scanFrom_cluster hdashes, scanFrom_separate (kindOf_letter option)]
  rfl

theorem events_attached (option : NumberOption) {arg : List Char} (harg : arg ≠ []) :
    (scanFrom [] (('-' :: option.letter :: arg) :: rest)).events =
      .argument option.letter arg :: (scanFrom [] rest).events := by
  have hdashes : '-' :: option.letter :: arg ≠ ['-', '-'] := by
    intro heq
    exact letter_ne_dash option (List.cons.inj (List.cons.inj heq).2).1
  rw [scanFrom_cluster hdashes, scanFrom_attached (kindOf_letter option) harg]
  rfl

theorem events_verbose :
    (scanFrom [] (['-', 'v'] :: rest)).events = .flag 'v' :: (scanFrom [] rest).events := by
  rw [scanFrom_cluster (by decide), scanFrom_flag rfl]
  rfl

theorem events_words {item : Item} (h : item.WellFormed) :
    (scanFrom [] (condenseFlags (item.words ++ rest))).events =
      item.event.toList ++ (scanFrom [] (condenseFlags rest)).events := by
  rw [condenseFlags, List.map_append]
  cases item with
  | number option spelling n =>
      cases spelling with
      | short =>
          have hflag : condenseFlag ['-', option.letter] = ['-', option.letter] := by
            cases option <;> decide
          show (scanFrom [] (condenseFlag ['-', option.letter] :: condenseFlag (percentD n) ::
            condenseFlags rest)).events = _
          rw [hflag, condenseFlag_percentD, events_separate]
          rfl
      | long =>
          show (scanFrom [] (condenseFlag option.name :: condenseFlag (percentD n) ::
            condenseFlags rest)).events = _
          rw [condenseFlag_name, condenseFlag_percentD, events_separate]
          rfl
      | attached =>
          have hflag : condenseFlag ('-' :: option.letter :: percentD n) =
              '-' :: option.letter :: percentD n := by
            apply condenseFlag_of_ne
            intro rest heq
            exact letter_ne_dash option (List.cons.inj (List.cons.inj heq).2).1
          show (scanFrom [] (condenseFlag ('-' :: option.letter :: percentD n) ::
            condenseFlags rest)).events = _
          rw [hflag, events_attached _ _ (percentD_ne_nil n)]
          rfl
  | verbose long =>
      have hflag : ∀ w ∈ (Item.verbose long).words, condenseFlag w = ['-', 'v'] := by
        cases long <;> decide
      cases long with
      | false =>
          show (scanFrom [] (condenseFlag "-v".toList :: condenseFlags rest)).events = _
          rw [hflag _ List.mem_cons_self, events_verbose]
          rfl
      | true =>
          show (scanFrom [] (condenseFlag "--verbose".toList :: condenseFlags rest)).events = _
          rw [hflag _ List.mem_cons_self, events_verbose]
          rfl
  | word w =>
      show (scanFrom [] (condenseFlag w :: condenseFlags rest)).events = _
      rw [condenseFlag_of_nonoption h, scanFrom_nonoption h]
      rfl

end Words

/-- The options of all items, in their order. -/
theorem events_items {items : List Item} (h : ∀ item ∈ items, item.WellFormed) :
    (scanFrom [] (condenseFlags (items.flatMap Item.words))).events =
      items.filterMap Item.event := by
  induction items with
  | nil => exact congrArg Scan.events scanFrom_nil
  | cons item items ih =>
      rw [List.flatMap_cons, events_words _ (h item List.mem_cons_self),
        ih fun item' hitem => h item' (List.mem_cons_of_mem item hitem)]
      cases hevent : item.event with
      | none => rw [List.filterMap_cons_none hevent]; rfl
      | some e => rw [List.filterMap_cons_some hevent]; rfl

/-- None of them is refused. -/
theorem applyEvents_items {items : List Item} (h : ∀ item ∈ items, item.WellFormed)
    (input : ProgramInput) :
    applyEvents input (items.filterMap Item.event) = some (items.foldl Item.apply input) := by
  induction items generalizing input with
  | nil => rfl
  | cons item items ih =>
      have hrest := ih fun item' hitem => h item' (List.mem_cons_of_mem item hitem)
      have hitem := h item List.mem_cons_self
      rw [List.foldl_cons]
      cases item with
      | number option spelling n =>
          obtain ⟨hzero, hlo, hhi⟩ := hitem
          have hatoi := atoi_percentD hzero hlo hhi
          have hevent : (Item.number option spelling n).event =
            some (.argument option.letter (percentD n)) := rfl
          rw [List.filterMap_cons_some hevent, applyEvents, hatoi, if_neg hzero]
          exact hrest _
      | verbose long =>
          have hevent : (Item.verbose long).event = some (.flag 'v') := rfl
          rw [List.filterMap_cons_some hevent, applyEvents]
          exact hrest _
      | word w =>
          have hevent : (Item.word w).event = none := rfl
          rw [List.filterMap_cons_none hevent]
          exact hrest _

/-- Behind the first words of a scan, the items of the line are applied. -/
theorem parse_items {a : Arithmetic} {name range mode : List Char} {input : ProgramInput}
    (hscan : scanInput a [name, "scan".toList, range, mode] = some input)
    (hrange : nonoption range = true) (hmode : nonoption mode = true) {items : List Item}
    (hitems : ∀ item ∈ items, item.WellFormed) :
    ∃ g, parseProgramInput a false fresh
        (name :: "scan".toList :: range :: mode :: items.flatMap Item.words) =
      some (.ok (some (items.foldl Item.apply input), g)) := by
  obtain ⟨hreads⟩ := reads_of_scanInput (show scanInput a
    (name :: "scan".toList :: range :: mode :: items.flatMap Item.words) = some input from hscan)
  obtain ⟨g, hrun⟩ := exists_scanOptions_fresh false name
    (range :: mode :: items.flatMap Item.words) input
  have hevents : (optionsOf false (name :: "scan".toList :: range :: mode ::
      items.flatMap Item.words)).events = items.filterMap Item.event := by
    rw [optionsOf, if_neg Bool.false_ne_true]
    show (scanFrom [] (condenseFlag range :: condenseFlag mode ::
      condenseFlags (items.flatMap Item.words))).events = _
    rw [condenseFlag_of_nonoption hrange, condenseFlag_of_nonoption hmode,
      scanFrom_nonoption hrange, scanFrom_nonoption hmode, events_items hitems]
  refine ⟨g, (parse_of_reads hreads false fresh).trans ?_⟩
  rw [hrun, hevents, applyEvents_items hitems]

/-- The number of the last item with this option. -/
def Item.number? (option : NumberOption) : Item → Option ℤ
  | .number option' _ n => if option' = option then some n else none
  | _ => none

def lastOf (option : NumberOption) : List Item → Option ℤ
  | [] => none
  | item :: items => (lastOf option items).or (item.number? option)

/-- Later items win, one field at a time. -/
theorem foldl_apply (items : List Item) (input : ProgramInput) :
    items.foldl Item.apply input =
      { input with
        timeout := (lastOf .timeout items).getD input.timeout
        holdTime := (lastOf .holdTime items).getD input.holdTime
        cycles := (lastOf .cycles items).getD input.cycles } := by
  induction items generalizing input with
  | nil => rfl
  | cons item items ih =>
      rw [List.foldl_cons, ih]
      simp only [lastOf, Option.getD_or]
      cases item with
      | number option spelling n => cases option <;> rfl
      | verbose long => rfl
      | word w => rfl

/-- **The meaning of a scan line.** Each number is the one of the last item with
its option, in whatever spelling and between whatever other words it stands, or
else the default. -/
theorem parse_itemLine {a : Arithmetic} {name range mode : List Char} {input : ProgramInput}
    (hscan : scanInput a [name, "scan".toList, range, mode] = some input)
    (hrange : nonoption range = true) (hmode : nonoption mode = true) {items : List Item}
    (hitems : ∀ item ∈ items, item.WellFormed) :
    ∃ g, parseProgramInput a false fresh
        (name :: "scan".toList :: range :: mode :: items.flatMap Item.words) =
      some (.ok (some { input with
        timeout := (lastOf .timeout items).getD input.timeout
        holdTime := (lastOf .holdTime items).getD input.holdTime
        cycles := (lastOf .cycles items).getD input.cycles }, g)) := by
  obtain ⟨g, hparse⟩ := parse_items hscan hrange hmode hitems
  rw [foldl_apply] at hparse
  exact ⟨g, hparse⟩

theorem scanInput_airband :
    scanInput exactArithmetic ["rcs".toList, "scan".toList, "105.5M".toList, "am".toList] =
      some { defaultProgramInput with
        subcommand := .scan
        demodMode := .am
        freqStart := 105500000
        freqEnd := 105500000 } := by
  decide +kernel

def airbandItems : List Item :=
  [.number .holdTime .attached 8, .word "tower".toList, .verbose true, .number .holdTime .long 5]

/-- Of two hold times in two spellings the later one counts. -/
theorem parse_itemLine_airband :
    ∃ g, parseProgramInput exactArithmetic false fresh
        ["rcs".toList, "scan".toList, "105.5M".toList, "am".toList, "-h8".toList,
          "tower".toList, "--verbose".toList, "--hold-time".toList, "5".toList] =
      some (.ok (some { defaultProgramInput with
        subcommand := .scan
        demodMode := .am
        holdTime := 5
        freqStart := 105500000
        freqEnd := 105500000 }, g)) := by
  have hitems : ∀ item ∈ airbandItems, item.WellFormed := by
    intro item hitem
    simp only [airbandItems, List.mem_cons, List.not_mem_nil, or_false] at hitem
    obtain rfl | rfl | rfl | rfl := hitem
    · exact ⟨by decide, by decide, by decide⟩
    · rfl
    · trivial
    · exact ⟨by decide, by decide, by decide⟩
  have hwords : airbandItems.flatMap Item.words =
      ["-h8".toList, "tower".toList, "--verbose".toList, "--hold-time".toList, "5".toList] := by
    decide +kernel
  obtain ⟨g, hparse⟩ := parse_itemLine scanInput_airband rfl rfl hitems
  rw [hwords] at hparse
  exact ⟨g, hparse⟩

/-! ### The line of a configuration -/

/-- A value in range is truncated, and what a `float` is truncated to is one. -/
structure Truncating (a : Arithmetic) : Prop where
  toUInt32 : ∀ q : ℚ, 0 ≤ q → q < 2 ^ 32 → a.toUInt32 (.fin q) = ⌊q⌋.toNat
  floor : ∀ q r : ℚ, a.round q = .fin r → 0 ≤ r → a.round (⌊r⌋.toNat : ℕ) = .fin (⌊r⌋.toNat : ℕ)

theorem Exact.truncating {a : Arithmetic} (ha : Exact a) : Truncating a where
  toUInt32 := ha.toUInt32
  floor _ _ _ _ := ha.round _

/-- The integral part of a `float` is one. -/
theorem truncating_binary32Arithmetic : Truncating binary32Arithmetic where
  toUInt32 := binary32_binary32Arithmetic.toUInt32
  floor := by
    intro q r hround hnonneg
    rw [binary32Arithmetic] at hround
    dsimp only at hround
    split at hround
    next hlt =>
      obtain rfl := Value.fin.inj hround
      have hfloor : ((⌊single.round q⌋.toNat : ℕ) : ℚ) = (⌊single.round q⌋ : ℤ) := by
        exact_mod_cast Int.toNat_of_nonneg (Int.floor_nonneg.mpr hnonneg)
      have hholds := (single.holds_round q).floor (by decide)
      have hself := single.round_of_holds hholds
      rw [← hfloor] at hself
      have hle : ((⌊single.round q⌋.toNat : ℕ) : ℚ) ≤ single.round q := by
        rw [hfloor]
        exact Int.floor_le _
      rw [binary32_binary32Arithmetic.round, hself]
      rw [hself, abs_of_nonneg (Nat.cast_nonneg _)]
      exact hle.trans_lt (lt_of_abs_lt hlt)
    · cases hround

/-- A frequency in hertz that a `float` holds. -/
def HoldsHertz (a : Arithmetic) (n : ℕ) : Prop :=
  0 < n ∧ a.round n = .fin n ∧ a.toUInt32 (.fin n) = n

/-- A number that is not zero and fits in an `int`. -/
def NonzeroInt (n : ℤ) : Prop := n ≠ 0 ∧ -2 ^ 31 ≤ n ∧ n < 2 ^ 31

/-- The configurations that a scan can have. -/
structure Configured (a : Arithmetic) (input : ProgramInput) : Prop where
  subcommand : input.subcommand = .scan
  verbose : input.verbose = false
  recency : input.recency = 86400
  timeout : input.timeout = 0 ∨ NonzeroInt input.timeout
  holdTime : NonzeroInt input.holdTime
  cycles : NonzeroInt input.cycles
  freqStart : HoldsHertz a input.freqStart
  freqEnd : HoldsHertz a input.freqEnd

def rangeText (input : ProgramInput) : List Char :=
  if input.freqStart = input.freqEnd then hertzText input.freqStart
  else hertzRangeText input.freqStart input.freqEnd

/-- A timeout of 0 cannot be given; it is the default. -/
def numberItems (input : ProgramInput) : List Item :=
  (if input.timeout = 0 then [] else [.number .timeout .short input.timeout]) ++
    [.number .holdTime .short input.holdTime, .number .cycles .short input.cycles]

/-- The command line of a configuration. -/
def commandLine (input : ProgramInput) : Argv :=
  "rcs".toList :: "scan".toList :: rangeText input :: input.demodMode.text ::
    (numberItems input).flatMap Item.words

section Line

variable {a : Arithmetic}

theorem HoldsHertz.float {n : ℕ} (h : HoldsHertz a n) :
    a.float (wholeDecimal n).toNumeral = .fin n := by
  rw [Arithmetic.float, Decimal.value_toNumeral, Value.bind, value_wholeDecimal, h.2.1]

theorem HoldsHertz.startable {n : ℕ} (h : HoldsHertz a n) :
    Startable (a.float (wholeDecimal n).toNumeral) := by
  rw [h.float, startable_fin]
  exact_mod_cast h.1

theorem HoldsHertz.frequencyRange_text {n : ℕ} (h : HoldsHertz a n) {ending : Ending}
    (hending : ending.NotNegative a) :
    frequencyRange a (hertzText n ++ ending.text) = some (.fin n, ending.value a (.fin n)) := by
  have hread := frequencyRange_append h.startable .none hending
  rw [text_wholeDecimal, h.float] at hread
  exact hread

theorem sanitize_rangeText {input start : ProgramInput} (hstart : HoldsHertz a input.freqStart)
    (hend : HoldsHertz a input.freqEnd) :
    sanitizeFrequencyRange a (rangeText input) start =
      some { start with freqStart := input.freqStart, freqEnd := input.freqEnd } := by
  unfold rangeText
  split
  next heq =>
    have hending : Ending.none.NotNegative a := trivial
    have hread := hstart.frequencyRange_text hending
    rw [Ending.text, List.append_nil] at hread
    rw [sanitizeFrequencyRange, hread, Option.map_some, Ending.value, ← heq]
    dsimp only
    rw [hstart.2.2]
  next hne =>
    have hending : (Ending.numeral (wholeDecimal input.freqEnd).toNumeral).NotNegative a :=
      hend.startable.1
    have hread := hstart.frequencyRange_text hending
    rw [Ending.text, text_wholeDecimal, Ending.value, hend.float] at hread
    rw [sanitizeFrequencyRange, hertzRangeText, hread, Option.map_some]
    dsimp only
    rw [hstart.2.2, hend.2.2]

/-- A text that begins with a digit is no option. -/
@[simp] theorem nonoption_rangeText (input : ProgramInput) :
    nonoption (rangeText input) = true := by
  have hdigits : ∀ (n : ℕ) (rest : List Char), nonoption (Nat.toDigits 10 n ++ rest) = true := by
    intro n rest
    cases hcs : Nat.toDigits 10 n with
    | nil => exact absurd hcs Nat.toDigits_ne_nil
    | cons c cs =>
        have hc : c.isDigit = true := isDigit_of_mem_toDigits (hcs ▸ List.mem_cons_self)
        rw [List.cons_append]
        unfold nonoption
        split
        next heq =>
          rw [(List.cons.inj heq).1] at hc
          cases hc
        · rfl
  unfold rangeText
  split
  · have h := hdigits input.freqStart []
    rwa [List.append_nil] at h
  · exact hdigits input.freqStart _

theorem foldl_numberItems {input start : ProgramInput} (h : Configured a input)
    (hstart : start = { defaultProgramInput with
      subcommand := .scan
      demodMode := input.demodMode
      freqStart := input.freqStart
      freqEnd := input.freqEnd }) :
    (numberItems input).foldl Item.apply start = input := by
  obtain ⟨hsubcommand, hverbose, hrecency, -⟩ := h
  subst hstart
  unfold numberItems
  split
  next hzero =>
    cases input
    simp_all [Item.apply, ProgramInput.setNumber, NumberOption.letter, defaultProgramInput]
  next hne =>
    cases input
    simp_all [Item.apply, ProgramInput.setNumber, NumberOption.letter, defaultProgramInput]

/-- **A configuration is read back from its line.** -/
theorem parse_commandLine {input : ProgramInput} (h : Configured a input) :
    ∃ g, parseProgramInput a false fresh (commandLine input) = some (.ok (some input, g)) := by
  have hscan : scanInput a ["rcs".toList, "scan".toList, rangeText input, input.demodMode.text] =
      some { defaultProgramInput with
        subcommand := .scan
        demodMode := input.demodMode
        freqStart := input.freqStart
        freqEnd := input.freqEnd } := by
    have hmode : demodMode input.demodMode.text = .ok (some input.demodMode) := by
      cases input.demodMode <;> rfl
    rw [scanInput, if_pos rfl, sanitize_rangeText h.freqStart h.freqEnd]
    simp only [Option.bind_eq_bind, Option.bind_some, hmode]
  have hmode : nonoption input.demodMode.text = true := by
    cases input.demodMode <;> rfl
  have hitems : ∀ item ∈ numberItems input, item.WellFormed := by
    intro item hitem
    unfold numberItems at hitem
    rw [List.mem_append] at hitem
    obtain hitem | hitem := hitem
    · split at hitem
      · cases hitem
      next hne =>
        obtain rfl := List.mem_singleton.mp hitem
        exact h.timeout.resolve_left hne
    · obtain rfl | hitem := List.mem_cons.mp hitem
      · exact h.holdTime
      · obtain rfl := List.mem_singleton.mp hitem
        exact h.cycles
  obtain ⟨g, hparse⟩ := parse_items hscan (nonoption_rangeText input) hmode hitems
  rw [foldl_numberItems h rfl] at hparse
  exact ⟨g, hparse⟩

/-! ### What a scan can be configured as -/

theorem nonzeroInt_atoi {arg : List Char} (h : atoi arg ≠ 0) : NonzeroInt (atoi arg) :=
  ⟨h, CInt.wrap_bounds _⟩

theorem Configured.setNumber {input : ProgramInput} (h : Configured a input) (c : Char) {n : ℤ}
    (hn : NonzeroInt n) : Configured a (input.setNumber c n) := by
  unfold ProgramInput.setNumber
  split
  · exact ⟨h.subcommand, h.verbose, h.recency, .inr hn, h.holdTime, h.cycles, h.freqStart,
      h.freqEnd⟩
  · split
    · exact ⟨h.subcommand, h.verbose, h.recency, h.timeout, hn, h.cycles, h.freqStart, h.freqEnd⟩
    · split
      · exact ⟨h.subcommand, h.verbose, h.recency, h.timeout, h.holdTime, hn, h.freqStart,
          h.freqEnd⟩
      · exact h

theorem storeNumber_inl {call : Call} {set : ℤ → ProgramInput} {loop : OptionLoop}
    (h : storeNumber call set = .inl loop) : ∃ n, NonzeroInt n ∧ loop.input = set n := by
  unfold storeNumber at h
  split at h
  · cases h
  next arg harg =>
    split at h
    · cases h
    next hne =>
      obtain rfl := Sum.inl.inj h
      exact ⟨atoi arg, nonzeroInt_atoi hne, rfl⟩

theorem storeNumber_inr {call : Call} {set : ℤ → ProgramInput} {input : ProgramInput} {g : State}
    (h : storeNumber call set = .inr (.ok (some input, g))) : False := by
  unfold storeNumber at h
  split at h
  · cases h
  · split at h
    · cases h
    · cases h

/-- An iteration of the option loop from any state of `getopt`. -/
theorem Configured.optionBody {posixlyCorrect : Bool} {loop loop' : OptionLoop}
    (h : Configured a loop.input) (hbody : optionBody posixlyCorrect loop = .inl loop') :
    Configured a loop'.input := by
  unfold RadioChatter.Input.optionBody at hbody
  split at hbody
  · cases hbody
  · split at hbody
    · cases hbody
    · split_ifs at hbody
      · obtain ⟨n, hn, hinput⟩ := storeNumber_inl hbody
        exact hinput ▸ h.setNumber 't' hn
      · obtain ⟨n, hn, hinput⟩ := storeNumber_inl hbody
        exact hinput ▸ h.setNumber 'h' hn
      · obtain ⟨n, hn, hinput⟩ := storeNumber_inl hbody
        exact hinput ▸ h.setNumber 'c' hn
      · obtain rfl := Sum.inl.inj hbody
        exact h

theorem Configured.optionBody_exit {posixlyCorrect : Bool} {loop : OptionLoop}
    {input : ProgramInput} {g : State} (h : Configured a loop.input)
    (hbody : RadioChatter.Input.optionBody posixlyCorrect loop = .inr (.ok (some input, g))) :
    Configured a input := by
  unfold RadioChatter.Input.optionBody at hbody
  split at hbody
  · cases hbody
  · split at hbody
    · obtain ⟨hinput, -⟩ := Prod.mk.inj (Except.ok.inj (Sum.inr.inj hbody))
      exact Option.some.inj hinput ▸ h
    · split_ifs at hbody
      · exact (storeNumber_inr hbody).elim
      · exact (storeNumber_inr hbody).elim
      · exact (storeNumber_inr hbody).elim
      · cases hbody

/-- A frequency that was converted is one that a `float` holds. -/
theorem Truncating.holdsHertz (ha : Truncating a) {v : Value} (hv : InHertz v)
    (hrounded : ∀ r, v = .fin r → ∃ q, a.round q = .fin r) : HoldsHertz a (a.toUInt32 v) := by
  cases v with
  | fin r =>
      obtain ⟨hone, hlt⟩ := hv
      have hnonneg : 0 ≤ r := zero_le_one.trans hone
      have hfloor : 1 ≤ ⌊r⌋ := Int.le_floor.mpr (by exact_mod_cast hone)
      have hcast : ((⌊r⌋.toNat : ℕ) : ℚ) = ⌊r⌋ := by
        exact_mod_cast Int.toNat_of_nonneg (zero_le_one.trans hfloor)
      obtain ⟨q, hq⟩ := hrounded r rfl
      rw [ha.toUInt32 r hnonneg hlt]
      refine ⟨by omega, ha.floor q r hq hnonneg, ?_⟩
      rw [ha.toUInt32 _ (Nat.cast_nonneg _) (by rw [hcast]; exact (Int.floor_le r).trans_lt hlt)]
      rw [Int.floor_natCast, Int.toNat_natCast]
  | inf negative => exact hv.elim
  | nan => exact hv.elim

/-- What is stored as a frequency has been rounded. -/
theorem rounded_of_frequencyRange {l : List Char} {v w : Value}
    (h : frequencyRange a l = some (v, w)) (hw : InHertz w) :
    (∀ r, v = .fin r → ∃ q, a.round q = .fin r) ∧ ∀ r, w = .fin r → ∃ q, a.round q = .fin r := by
  have hbind : ∀ (u : Value) (f : ℚ → ℚ) (r : ℚ), u.bind (fun q => a.round (f q)) = .fin r →
      ∃ q, a.round q = .fin r := by
    intro u f r hr
    cases u with
    | fin q => exact ⟨f q, hr⟩
    | inf negative => cases hr
    | nan => cases hr
  obtain ⟨n, s, ending, rfl, hn, hending⟩ :=
    (frequencyRange_isSome_iff a l).mp (Option.isSome_iff_exists.mpr ⟨_, h⟩)
  rw [frequencyRange_append hn s hending] at h
  obtain ⟨rfl, rfl⟩ := Prod.mk.inj (Option.some.inj h)
  have hstart : ∀ r, s.apply a (a.float n) = .fin r → ∃ q, a.round q = .fin r := by
    intro r hr
    cases s with
    | none => exact hbind n.value id r hr
    | k => exact hbind (a.float n) (· * 1000) r hr
    | M => exact hbind (a.float n) (· * 1000000) r hr
  refine ⟨hstart, ?_⟩
  cases ending with
  | none => exact hstart
  | missing =>
      obtain ⟨hone, -⟩ := hw
      exact absurd hone (not_le.mpr zero_lt_one)
  | numeral m => exact fun r hr => hbind m.value id r hr

/-- The configuration of a scan before its options. -/
theorem Reads.configured (ha : Truncating a) {argv : Argv} {input : ProgramInput}
    (h : Reads a argv input)
    (hhertz : ∀ v w, frequencyRange a h.range = some (v, w) → InHertz v ∧ InHertz w) :
    Configured a input := by
  obtain ⟨⟨v, w⟩, hrange, hranged⟩ := Option.map_eq_some_iff.mp h.sanitize
  obtain ⟨hv, hw⟩ := hhertz v w hrange
  obtain ⟨hstart, hend⟩ := rounded_of_frequencyRange hrange hw
  have hthree : NonzeroInt 3 := ⟨by decide, by decide, by decide⟩
  rw [h.input_eq, ← hranged]
  exact ⟨rfl, rfl, rfl, .inl rfl, hthree, hthree, ha.holdsHertz hv hstart, ha.holdsHertz hw hend⟩

end Line

/-- **Every configuration of a scan has its own command line.** Whatever line it
came from, in whatever state `getopt` was, it is read back from the line that is
written out from it, provided that the frequencies were in range. -/
theorem commandLine_of_parse {a : Arithmetic} (ha : Truncating a) {posixlyCorrect : Bool}
    {s g : State} {name range : List Char} {args : Argv} {input : ProgramInput}
    (hparse : parseProgramInput a posixlyCorrect s (name :: "scan".toList :: range :: args) =
      some (.ok (some input, g)))
    (hhertz : ∀ v w, frequencyRange a range = some (v, w) → InHertz v ∧ InHertz w) :
    ∃ g', parseProgramInput a false fresh (commandLine input) = some (.ok (some input, g')) := by
  cases hscan : scanInput a (name :: "scan".toList :: range :: args) with
  | none =>
      have hhelp : checkHelpCommand (name :: "scan".toList :: range :: args)
          defaultProgramInput = none := by
        simp [checkHelpCommand]
      obtain hnone | ⟨fault, hfault⟩ := parse_of_not_scanInput hscan (List.cons_ne_nil _ _)
      · rw [hnone, hhelp] at hparse
        cases hparse
      · rw [hfault] at hparse
        cases hparse
  | some start =>
      obtain ⟨hreads⟩ := reads_of_scanInput hscan
      have hrange : hreads.range = range := by
        have hargv := hreads.argv_eq
        injection hargv with _ hargv
        injection hargv with _ hargv
        injection hargv with hargv _
        exact hargv.symm
      have hstart : Configured a start := hreads.configured ha (hrange.symm ▸ hhertz)
      rw [parse_of_reads hreads] at hparse
      apply parse_commandLine
      exact BoundedLoop.run_invariant (fun loop => Configured a loop.input)
        (fun outcome => ∀ input g, outcome = .ok (some input, g) → Configured a input)
        (fun _ _ h hbody => h.optionBody hbody)
        (fun _ _ h hbody _ _ heq => h.optionBody_exit (heq ▸ hbody)) hstart hparse input g rfl

/-- A frequency of the airband, with a hold time of 5. -/
theorem commandLine_of_parse_airband :
    ∃ g, parseProgramInput exactArithmetic false fresh
        ["rcs".toList, "scan".toList, "105500000".toList, "am".toList, "-h".toList, "5".toList,
          "-c".toList, "3".toList] =
      some (.ok (some { defaultProgramInput with
        subcommand := .scan
        demodMode := .am
        holdTime := 5
        freqStart := 105500000
        freqEnd := 105500000 }, g)) := by
  have hitems : ∀ item ∈ [Item.number .holdTime .long 5], item.WellFormed := by
    intro item hitem
    obtain rfl := List.mem_singleton.mp hitem
    exact ⟨by decide, by decide, by decide⟩
  obtain ⟨g, hparse⟩ := parse_items scanInput_airband rfl rfl hitems
  refine commandLine_of_parse exact_exactArithmetic.truncating hparse fun v w hrange => ?_
  have hvalue : frequencyRange exactArithmetic "105.5M".toList =
      some (.fin 105500000, .fin 105500000) := by
    decide +kernel
  obtain ⟨rfl, rfl⟩ := Prod.mk.inj (Option.some.inj (hvalue.symm.trans hrange))
  exact ⟨⟨by norm_num, by norm_num⟩, by norm_num, by norm_num⟩

end RadioChatter.Input
