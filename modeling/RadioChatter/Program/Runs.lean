import RadioChatter.Input.CommandLine
import RadioChatter.Program.Main
import RadioChatter.Radio.Delivery
import RadioChatter.Vad.Continuation

/-!
Whole runs of the program.

Nothing is proved anew here about a part of it. The line is read as in
`Input.CommandLine`, the two processes make the capture of `Radio.Processes`, its
bytes are the samples of `Radio.Samples`, and the detector is the one of
`Vad.Continuation`. The theorems say what follows for the effects of a run: what
the verdict depends on, and what it cannot depend on.
-/

namespace RadioChatter.Program

open Input Radio Schedule Vad
open Getopt (Argv fresh nonoption)

/-! ### Runs that scan one frequency -/

/-- A host on which nothing fails, and whose session answers with `f`. -/
structure Ready (host : Host) (f : ModelCall → ℚ × List.Vector ℚ sizeState) : Prop where
  device : host.deviceCount ≠ 0
  pipe : host.pipeFails = false
  fork : host.forkFails = false
  model : host.model = some fun c => .ok (f c)

/-- The line asks for a scan of one frequency that `rtl_fm` can be given. -/
structure Tunes (host : Host) (argv : Argv) (input : ProgramInput) : Prop where
  parsed : ∃ g, parseProgramInput host.arithmetic host.posixlyCorrect fresh argv =
    some (.ok (some input, g))
  scan : input.subcommand = .scan
  single : input.freqStart = input.freqEnd
  pos : 0 < input.freqStart
  lt : input.freqStart < 2 ^ 31

/-- The detection by its definition: some group of high windows is long enough, with
the thresholds, bounds and lengths of the floats. -/
def detects (f : ModelCall → ℚ × List.Vector ℚ sizeState) (data : List Int16) : Bool :=
  (rcsVadCreate 16000 0.5).nonStreamingFloat
    (probsOf f 512 (inputData data) (rcsVadCreate 16000 0.5)) data.length ≠ []

/-- The effects of a scan whose two processes end in `w` and which comes to the
verdict `b`. -/
def scanEffects (host : Host) (input : ProgramInput) (w : World) (b : Bool) : List Effect :=
  [.stdout host.announcement,
    .fork (rtlFmArgs (Nat.toDigits 10 input.freqStart) input.demodMode)] ++
  host.complaint w.complained ++ [.stdout (verdictText b), .kill]

section Scan

variable {host : Host} {argv : Argv} {input : ProgramInput}
  {f : ModelCall → ℚ × List.Vector ℚ sizeState}

theorem rtlFmArgs_of_lt {n : ℕ} (hpos : 0 < n) (hlt : n < 2 ^ 31) (demodMode : DemodMode) :
    Radio.radioScanSingleFreq (.ofNat n) demodMode =
      .ok (rtlFmArgs (Nat.toDigits 10 n) demodMode) := by
  have hnat : (UInt32.ofNat n).toNat = n := by
    rw [UInt32.toNat_ofNat']
    omega
  have hwrap : CInt.wrap n = n := CInt.wrap_of_lt (by omega) (by omega)
  rw [radioScanSingleFreq_eq, hnat, hwrap, percentD_natCast, countDigits_of_pos hpos, Nat.zero_add,
    if_pos (le_refl _)]

@[simp] theorem perform_apply (effect : Effect) (effects : List Effect) :
    perform effect effects = .ok () (effects ++ [effect]) := rfl

@[simp] theorem perform_bind {α : Type} (effect : Effect) (next : Unit → Proc α)
    (effects : List Effect) :
    (perform effect >>= next) effects = next () (effects ++ [effect]) := rfl

@[simp] theorem performAll_apply (effects effects' : List Effect) :
    performAll effects' effects = .ok () (effects ++ effects') := rfl

@[simp] theorem performAll_bind {α : Type} (effects' : List Effect) (next : Unit → Proc α)
    (effects : List Effect) :
    (performAll effects' >>= next) effects = next () (effects ++ effects') := rfl

/-- A line that is accepted makes `getopt` print nothing. -/
theorem main_of_parsed (h : ∃ g, parseProgramInput host.arithmetic host.posixlyCorrect fresh argv =
    some (.ok (some input, g))) (effects : List Effect) :
    main host argv effects = runSubcommand host input effects := by
  obtain ⟨g, hparse⟩ := h
  obtain ⟨texts, hprinted, -, hnil⟩ := complains_parse hparse _ _ rfl
  have hquiet : g.printed = [] := by
    rw [hprinted, hnil rfl]
    rfl
  rw [main, hparse]
  dsimp only
  rw [performAll_bind, hquiet, List.map_nil, List.append_nil]

/-- **A line that is refused.** There is at most one message of `getopt` in front of
the program's own. -/
theorem run_of_refused {g : Getopt.State}
    (h : parseProgramInput host.arithmetic host.posixlyCorrect fresh argv = some (.ok (none, g))) :
    g.printed.length ≤ 1 ∧
      run host argv =
        (g.printed.map Effect.stderr ++ [.stderr "Invalid usage: See 'rcs help'\n".toList],
          .exit invalidProgramUsage) := by
  obtain ⟨texts, hprinted, hlength, -⟩ := complains_parse h _ _ rfl
  rw [show fresh.printed = [] from rfl, List.nil_append] at hprinted
  refine ⟨hprinted ▸ hlength, ?_⟩
  rw [run, main, h]
  dsimp only
  rw [performAll_bind, perform_bind, List.nil_append]
  rfl

theorem sized_scanner : Sized 512 (rcsVadCreate 16000 0.5) := by
  have hrate : (1000 : ℚ) ≤ 16000 := by norm_num
  have hfloor : ⌊(16000 : ℚ)⌋ = 16000 := by norm_num
  have hsized : Sized _ (rcsVadCreate 16000 0.5) := sized_rcsVadCreate hrate
  rw [hfloor] at hsized
  exact hsized

theorem determineVoiceActivity_eq (hmodel : host.model = some fun c => .ok (f c))
    (data : List Int16) : host.determineVoiceActivity data = .ok (detects f data) := by
  have hfuel : data.length / 512 < data.length + 1 :=
    Nat.lt_succ_of_le (Nat.div_le_self _ _)
  obtain ⟨e', hverdict⟩ := hasVoiceActivityFloat_eq (ε := Unit) (f := f)
    (e := ⟨rcsVadCreate 16000 0.5, []⟩) sized_scanner hfuel
  rw [Host.determineVoiceActivity, hmodel]
  dsimp only
  rw [hverdict]
  rfl

theorem consumed_of_returned {timeout : ℚ} {w : World} (hworld : host.world timeout = some w)
    (hreturned : w.parent = .returned) :
    host.consumed timeout = .ok (w.complained, w.capture.dataLen, w.capture.radioData) := by
  have houtcome : w.outcome = some (.ok (w.capture.dataLen, w.capture.radioData)) := by
    rw [World.outcome, hreturned]
  rw [Host.consumed, hworld]
  dsimp only
  rw [houtcome]

theorem scanForked_apply {args : List (List Char)} {timeout : ℚ} {complained : Bool} {dataLen : ℕ}
    {radioData : List (Option UInt8)} {b : Bool}
    (hconsumed : host.consumed timeout = .ok (complained, dataLen, radioData))
    (hverdict : host.determineVoiceActivity (samplesIn host.heap dataLen radioData) = .ok b)
    (effects : List Effect) :
    scanForked host args timeout effects =
      .ok () (effects ++
        ([.fork args] ++ host.complaint complained ++ [.stdout (verdictText b), .kill])) := by
  rw [scanForked, perform_bind, hconsumed]
  simp only [orEnd, pure_bind]
  rw [hverdict]
  simp only [performAll_bind, pure_bind, perform_bind, perform_apply, List.append_assoc,
    List.cons_append, List.nil_append]

theorem radioScanSingleFreq_of_args {freq : UInt32} {timeout : ℚ} {demodMode : DemodMode}
    {args : List (List Char)} (hready : Ready host f)
    (hargs : Radio.radioScanSingleFreq freq demodMode = .ok args) :
    radioScanSingleFreq host freq timeout demodMode = scanForked host args timeout := by
  rw [radioScanSingleFreq, hargs, hready.pipe, hready.fork]
  simp only [orFault, pure_bind, Bool.false_eq_true, if_false]

theorem runSubcommand_of_tunes (hready : Ready host f) (htunes : Tunes host argv input) :
    runSubcommand host input = (do
      perform (.stdout host.announcement)
      scanForked host (rtlFmArgs (Nat.toDigits 10 input.freqStart) input.demodMode)
        (host.float input.holdTime)) := by
  rw [runSubcommand, htunes.scan]
  dsimp only
  rw [radioDeviceCheck, if_neg hready.device, if_pos htunes.single,
    radioScanSingleFreq_of_args hready (rtlFmArgs_of_lt htunes.pos htunes.lt _)]

/-- A scan whose capture has returned goes on to the verdict on its samples. -/
theorem run_of_returned (hready : Ready host f) (htunes : Tunes host argv input) {w : World}
    (hworld : host.world (host.float input.holdTime) = some w) (hreturned : w.parent = .returned) :
    run host argv =
      (scanEffects host input w
        (detects f (samplesIn host.heap w.capture.dataLen w.capture.radioData)),
        .exit exitSuccess) := by
  rw [run, main_of_parsed htunes.parsed, runSubcommand_of_tunes hready htunes, perform_bind,
    scanForked_apply (consumed_of_returned hworld hreturned)
      (determineVoiceActivity_eq hready.model _), scanEffects]
  simp only [List.nil_append, List.cons_append]

theorem not_faulted_of_returned {w : World} (hreturned : w.parent = .returned)
    (fault : Checked.Fault) : w.parent ≠ .faulted fault := by
  rw [hreturned]
  intro h
  cases h

/-- A capture of less than 0.31 seconds is never taken for speech. -/
theorem detects_of_short {data : List Int16} (h : data.length < 4960) : detects f data = false := by
  have hrate : (1000 : ℚ) ≤ 16000 := by norm_num
  have hwindows := length_probsOf_mul_le f sized_scanner data
  have hfits : (rcsVadCreate 16000 0.5).FitsFloat
      (probsOf f 512 (inputData data) (rcsVadCreate 16000 0.5)).length data.length := by
    refine ⟨by decide +kernel, by decide +kernel, by decide +kernel, hwindows, ?_⟩
    have hpad : (rcsVadCreate 16000 0.5).speechPadSamples = 480 := by decide +kernel
    omega
  have hminimum : (rcsVadCreate 16000 0.5).minSpeechSamples +
      2 * (rcsVadCreate 16000 0.5).speechPadSamples = 4960 := by
    decide +kernel
  rw [detects, decide_eq_false_iff_not, not_not]
  apply (spaced_rcsVadCreate hrate).nonStreamingFloat_eq_nil hfits
  omega

/-- A host with one device, whose session hears speech in every window. -/
def loudHost (terminal : Bool) (schedule : List Act) : Host where
  arithmetic := exactArithmetic
  posixlyCorrect := false
  deviceCount := 1
  manufacturer := "Realtek".toList
  productName := "RTL2838UHIDIR".toList
  deviceName := "Generic RTL2832U".toList
  terminal := terminal
  pipeFails := false
  forkFails := false
  float n := n
  now := 0
  capacity := 65536
  schedule := schedule
  heap _ := 0
  errorText := "Success".toList
  model := some fun _ => .ok (1, List.Vector.replicate _ 0)

theorem ready_loudHost (terminal : Bool) (schedule : List Act) :
    Ready (loudHost terminal schedule) fun _ => (1, List.Vector.replicate _ 0) :=
  ⟨Nat.one_ne_zero, rfl, rfl, rfl⟩

def airbandInput : ProgramInput :=
  { defaultProgramInput with
    subcommand := .scan
    demodMode := .am
    freqStart := 105500000
    freqEnd := 105500000 }

/-- The scan of the airband with these items, on such a host. -/
theorem tunes_airband (terminal : Bool) (schedule : List Act) {items : List Item}
    (hitems : ∀ item ∈ items, item.WellFormed) :
    Tunes (loudHost terminal schedule) ("rcs".toList :: "scan".toList :: "105.5M".toList ::
        "am".toList :: items.flatMap Item.words)
      (items.foldl Item.apply airbandInput) := by
  have hfold := foldl_apply items airbandInput
  have hstart : (items.foldl Item.apply airbandInput).freqStart = 105500000 :=
    congrArg ProgramInput.freqStart hfold
  have hend : (items.foldl Item.apply airbandInput).freqEnd = 105500000 :=
    congrArg ProgramInput.freqEnd hfold
  refine ⟨parse_items scanInput_airband rfl rfl hitems, congrArg ProgramInput.subcommand hfold,
    hstart.trans hend.symm, ?_, ?_⟩
  · rw [hstart]
    norm_num
  · rw [hstart]
    norm_num

/-- **From the child's samples to the verdict.** However the two processes are
scheduled, when `rtl_fm` writes whole samples and the capture returns, the run ends
well, and the verdict is that of the detector on the first samples of what `rtl_fm`
has written. A read that ends the capture is complained of in front of the verdict. -/
theorem run_detects (hready : Ready host f) (htunes : Tunes host argv input) {w : World}
    (hworld : host.world (host.float input.holdTime) = some w) (hreturned : w.parent = .returned)
    (hacts : ∀ act ∈ host.schedule, WholeSamples (host.scene (host.float input.holdTime)) act) :
    ∃ data, w.written = Db.dataBytes data ∧ w.capture.dataLen ≤ data.length ∧
      run host argv =
        (scanEffects host input w (detects f (data.take w.capture.dataLen)),
          .exit exitSuccess) := by
  have hwhole := whole_of_exec hworld hacts
  have hcaptured := (simulated_of_exec hworld).captured (not_faulted_of_returned hreturned)
  obtain ⟨-, hle, hsamples⟩ := hwhole.stored hcaptured
  obtain ⟨data, hdata⟩ := exists_dataBytes hwhole.written
  rw [← hdata, sampleSize] at hle hsamples
  refine ⟨data, hdata.symm, ?_, ?_⟩
  · rw [Db.length_dataBytes] at hle
    omega
  · rw [run_of_returned hready htunes hworld hreturned, samplesIn_of_take hsamples hle]

/-- The time is up when one of two samples is read. -/
theorem run_detects_halfRead :
    ∃ data, (worldAfter halfRead).written = Db.dataBytes data ∧
      (worldAfter halfRead).capture.dataLen ≤ data.length ∧
      run (loudHost true halfRead)
          ["rcs".toList, "scan".toList, "105.5M".toList, "am".toList] =
        ([.stdout (loudHost true halfRead).announcement,
          .fork (rtlFmArgs (Nat.toDigits 10 105500000) .am),
          .stdout (verdictText (detects (fun _ => (1, List.Vector.replicate _ 0))
            (data.take (worldAfter halfRead).capture.dataLen))), .kill], .exit 0) := by
  have hitems : ∀ item ∈ ([] : List Item), item.WellFormed := by
    simp
  have hworld : (loudHost true halfRead).world ((3 : ℤ) : ℚ) = some (worldAfter halfRead) :=
    exec_worldAfter (by decide +kernel)
  have hquiet : (worldAfter halfRead).complained = false := by
    decide +kernel
  have hacts : ∀ act ∈ (loudHost true halfRead).schedule,
      WholeSamples ((loudHost true halfRead).scene ((3 : ℤ) : ℚ)) act := by
    simp [loudHost, halfRead, WholeSamples, sampleSize]
  obtain ⟨data, hdata, hle, hrun⟩ := run_detects (ready_loudHost true halfRead)
    (tunes_airband true halfRead hitems) hworld (by decide +kernel) hacts
  rw [scanEffects, hquiet] at hrun
  exact ⟨data, hdata, hle, hrun⟩

/-- **A missing `rtl_fm` is reported as silence.** When `execvp` fails, or the
child ends without a word, the run ends well and without speech, and never with
the status for an `rtl_fm` that failed; what the child has inherited of the
announcement is too short to be taken for speech. -/
theorem run_without_rtlFm (hready : Ready host f) (htunes : Tunes host argv input) {w : World}
    (hworld : host.world (host.float input.holdTime) = some w) (hreturned : w.parent = .returned)
    (hacts : ∀ bytes, .write bytes ∉ host.schedule)
    (hshort : host.terminal = true ∨ host.announcement.length < 4960) :
    run host argv = (scanEffects host input w false, .exit exitSuccess) := by
  have hlength : host.unflushed.length < 4960 := by
    unfold Host.unflushed
    split
    next => exact Nat.succ_pos _
    next hterminal =>
      rw [List.length_map]
      exact hshort.resolve_left hterminal
  have hle : w.capture.dataLen ≤ host.unflushed.length :=
    (inherited_of_acts hworld hacts).dataLen_le hworld (not_faulted_of_returned hreturned)
  rw [run_of_returned hready htunes hworld hreturned, detects_of_short]
  rw [length_samplesIn]
  omega

/-- The `execvp` fails while the announcement is in the buffer, and the parent reads
until the end of the pipe. -/
def announced : List Act := [.child, .child, .execFails, .ends] ++ List.replicate 70 .parent

theorem run_without_rtlFm_announced :
    run (loudHost false announced) ["rcs".toList, "scan".toList, "105.5M".toList, "am".toList] =
      ([.stdout (loudHost false announced).announcement,
        .fork (rtlFmArgs (Nat.toDigits 10 105500000) .am),
        .stderr "Error: : Success\n".toList, .stdout (verdictText false), .kill], .exit 0) := by
  have hitems : ∀ item ∈ ([] : List Item), item.WellFormed := by
    simp
  have hany : ((loudHost false announced).world ((3 : ℤ) : ℚ)).any
      (fun w => w.parent = .returned ∧ w.complained = true) = true := by
    decide +kernel
  obtain ⟨w, hworld, hw⟩ := Option.any_eq_true _ _ |>.mp hany
  obtain ⟨hreturned, hcomplained⟩ := of_decide_eq_true hw
  have hacts : ∀ bytes, .write bytes ∉ (loudHost false announced).schedule := by
    simp [loudHost, announced]
  have hrun := run_without_rtlFm (ready_loudHost false announced)
    (tunes_airband false announced hitems) hworld hreturned hacts (.inr (by decide +kernel))
  rw [scanEffects, hcomplained] at hrun
  exact hrun

/-- **A hold time that is not positive hears nothing.** Unless the clock goes back
behind its first reading, no sample is read, whatever `rtl_fm` writes, and there is
nothing to complain of. -/
theorem run_of_nonpositive (hready : Ready host f) (htunes : Tunes host argv input) {w : World}
    (hworld : host.world (host.float input.holdTime) = some w) (hreturned : w.parent = .returned)
    (htimeout : host.float input.holdTime ≤ 0) (hclock : ∀ now ∈ w.readings, w.start ≤ now) :
    w.capture.dataLen = 0 ∧ w.complained = false ∧
      run host argv = (scanEffects host input w false, .exit exitSuccess) := by
  have hlate : ∀ now ∈ w.readings, host.float input.holdTime ≤ ((now - w.start : ℤ) : ℚ) := by
    intro now hnow
    have hnonneg : (0 : ℚ) ≤ ((now - w.start : ℤ) : ℚ) := by
      exact_mod_cast sub_nonneg.mpr (hclock now hnow)
    exact htimeout.trans hnonneg
  -- Behind the last reading the clock may be taken to stand at the start.
  have hagrees : w.Agrees ⟨fun n => w.grants.getD n .two,
      fun n => if n = 0 then w.start else w.readings.getD (n - 1) w.start⟩ := by
    refine ⟨rfl, ?_, ?_⟩
    · intro n now hnow
      simp [List.getD_eq_getElem?_getD, hnow]
    · intro n g hg
      simp [List.getD_eq_getElem?_getD, hg]
  have hcaptured := (simulated_of_exec hworld).captured_of_agrees
    (not_faulted_of_returned hreturned) hagrees
  have hzero : w.capture.dataLen = 0 := by
    by_contra hne
    have htime : ((w.readings.getD 0 w.start - w.start : ℤ) : ℚ) < host.float input.holdTime :=
      (hcaptured.past 0 (Nat.pos_of_ne_zero hne)).1
    have hup : host.float input.holdTime ≤ ((w.readings.getD 0 w.start - w.start : ℤ) : ℚ) := by
      cases hreadings : w.readings with
      | nil => simpa using htimeout
      | cons now readings => exact hlate now (hreadings ▸ List.mem_cons_self)
    exact absurd htime hup.not_gt
  refine ⟨hzero, (excused_of_exec hworld).not_complained hlate, ?_⟩
  rw [run_of_returned hready htunes hworld hreturned, detects_of_short]
  rw [length_samplesIn, hzero]
  exact Nat.succ_pos _

/-- The option `-h -5` is accepted. -/
theorem run_of_nonpositive_minusFive :
    run (loudHost true [.parent, .parent, .parent])
        ["rcs".toList, "scan".toList, "105.5M".toList, "am".toList, "-h".toList, "-5".toList] =
      ([.stdout (loudHost true []).announcement,
        .fork (rtlFmArgs (Nat.toDigits 10 105500000) .am),
        .stdout (verdictText false), .kill], .exit 0) := by
  have hitems : ∀ item ∈ [Item.number .holdTime .short (-5)], item.WellFormed := by
    intro item hitem
    obtain rfl := List.mem_singleton.mp hitem
    exact ⟨by decide, by decide, by decide⟩
  have hany : ((loudHost true [.parent, .parent, .parent]).world ((-5 : ℤ) : ℚ)).any
      (fun w => w.parent = .returned ∧ ∀ now ∈ w.readings, w.start ≤ now) = true := by
    decide +kernel
  obtain ⟨w, hworld, hw⟩ := Option.any_eq_true _ _ |>.mp hany
  obtain ⟨hreturned, hclock⟩ := of_decide_eq_true hw
  have htimeout : ((-5 : ℤ) : ℚ) ≤ 0 := by
    norm_num
  obtain ⟨-, hquiet, hrun⟩ := run_of_nonpositive (ready_loudHost true _)
    (tunes_airband true _ hitems) hworld hreturned htimeout hclock
  rw [scanEffects, hquiet] at hrun
  exact hrun

end Scan

/-- **What a run depends on.** Of the options of a scan only the last hold time
has an influence: two lines that agree on it, on the range and on the mode make
the same run on every host, with whatever timeouts, cycles and other words. -/
theorem run_itemLines {host : Host} (hposix : host.posixlyCorrect = false)
    {name range mode : List Char} {input : ProgramInput}
    (hscan : scanInput host.arithmetic [name, "scan".toList, range, mode] = some input)
    (hrange : nonoption range = true) (hmode : nonoption mode = true) {items items' : List Item}
    (hitems : ∀ item ∈ items, item.WellFormed) (hitems' : ∀ item ∈ items', item.WellFormed)
    (hhold : lastOf .holdTime items = lastOf .holdTime items') :
    run host (name :: "scan".toList :: range :: mode :: items.flatMap Item.words) =
      run host (name :: "scan".toList :: range :: mode :: items'.flatMap Item.words) := by
  have hmain : ∀ items : List Item, (∀ item ∈ items, item.WellFormed) →
      main host (name :: "scan".toList :: range :: mode :: items.flatMap Item.words) [] =
        runSubcommand host (items.foldl Item.apply input) [] := by
    intro items hitems
    have hparse := parse_items hscan hrange hmode hitems
    rw [← hposix] at hparse
    exact main_of_parsed hparse []
  rw [run, run, hmain items hitems, hmain items' hitems', foldl_apply, foldl_apply, hhold]
  rfl

/-- A hold time of 5 among other options and words, and alone. -/
theorem run_itemLines_five :
    run (loudHost true halfRead) ["rcs".toList, "scan".toList, "105.5M".toList, "am".toList,
        "-t".toList, "60".toList, "tower".toList, "-h5".toList] =
      run (loudHost true halfRead) ["rcs".toList, "scan".toList, "105.5M".toList, "am".toList,
        "--hold-time".toList, "5".toList] := by
  have hitems : ∀ item ∈ [Item.number .timeout .short 60, .word "tower".toList,
      .number .holdTime .attached 5], item.WellFormed := by
    intro item hitem
    simp only [List.mem_cons, List.not_mem_nil, or_false] at hitem
    obtain rfl | rfl | rfl := hitem
    · exact ⟨by decide, by decide, by decide⟩
    · rfl
    · exact ⟨by decide, by decide, by decide⟩
  have hitems' : ∀ item ∈ [Item.number .holdTime .long 5], item.WellFormed := by
    intro item hitem
    obtain rfl := List.mem_singleton.mp hitem
    exact ⟨by decide, by decide, by decide⟩
  have hwords : [Item.number .timeout .short 60, .word "tower".toList,
        .number .holdTime .attached 5].flatMap Item.words =
      ["-t".toList, "60".toList, "tower".toList, "-h5".toList] := by
    decide +kernel
  have hwords' : [Item.number .holdTime .long 5].flatMap Item.words =
      ["--hold-time".toList, "5".toList] := by
    decide +kernel
  have hposix : (loudHost true halfRead).posixlyCorrect = false := rfl
  have hsame := run_itemLines hposix scanInput_airband rfl rfl hitems hitems' rfl
  rw [hwords, hwords'] at hsame
  exact hsame

end RadioChatter.Program
