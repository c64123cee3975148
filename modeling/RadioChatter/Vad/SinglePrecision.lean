import RadioChatter.Lib.BinaryFloat
import RadioChatter.Vad.Detector

/-!
`DoVad` in single precision.

Samples are counted in an `int`, but the bounds of an `Interval` are `float`,
and so is what the length filter computes with them. The loop itself only
compares probabilities, so that rounding shifts the lower threshold and the
bounds that are written down, and nothing else: the detector with floats is
the segmenter on levels of its own, with rounded intervals. A `float` holds
every integer up to `2 ^ 24`, which at 16 kHz are more than 17 minutes.
-/

namespace RadioChatter.Vad

open BinaryFloat Checked Hysteresis

/-- A `float` that is a number. -/
abbrev Single : Type := {x : ℚ // single.Holds x}

/-- The conversion of an `int` to a `float`. -/
def toFloat (n : ℤ) : ℚ := single.round n

theorem toFloat_eq {n : ℤ} (h : |n| ≤ 2 ^ 24) : toFloat n = n :=
  single.round_intCast (by decide) h

def Interval.rounded (s : Interval) : Interval := ⟨single.round s.start, single.round s.stop⟩

def OpenInterval.rounded (s : OpenInterval) : OpenInterval :=
  ⟨single.round s.start, s.stop.map single.round⟩

namespace VadIterator

/-- `threshold - 0.15f`. -/
def lowThreshold (v : VadIterator) : ℚ := single.round (v.threshold - single.round 0.15)

/-- `quietWindow`, with a `float` for the end. -/
def quietWindowFloat (s : VadIterator × List OpenInterval) :
    Except Fault (VadIterator × List OpenInterval) :=
  let v := if s.1.tempEnd = 0 then { s.1 with tempEnd := s.1.currentSample } else s.1
  if v.minSilenceSamples ≤ v.currentSample - v.tempEnd then do
    let stop := toFloat (v.tempEnd + v.speechPadSamples - v.windowSizeSamples)
    let speeches ← setBackEnd s.2 stop
    pure ({ v with tempEnd := 0, triggered := false }, speeches)
  else .ok (v, s.2)

/-- One iteration of the loop of `VadIterator::DoVad`. -/
def doVadStepFloat (s : VadIterator × List OpenInterval) (speechProb : ℚ) :
    Except Fault (VadIterator × List OpenInterval) :=
  let v := { s.1 with currentSample := s.1.currentSample + s.1.windowSizeSamples }
  let v := if v.threshold ≤ speechProb ∧ v.tempEnd ≠ 0 then { v with tempEnd := 0 } else v
  if v.threshold ≤ speechProb then
    if v.triggered = false then
      let start := toFloat (max 0 (v.currentSample - v.speechPadSamples - v.windowSizeSamples))
      .ok ({ v with triggered := true }, s.2 ++ [⟨start, none⟩])
    else .ok (v, s.2)
  else if v.triggered then
    if speechProb < v.lowThreshold then quietWindowFloat (v, s.2)
    else .ok (v, s.2)
  else .ok (v, s.2)

/-- Every difference of the length filter is a `float`. -/
def tooShortFloat (v : VadIterator) (speech : Interval) : Bool :=
  single.round (single.round (speech.stop - toFloat v.speechPadSamples) -
    single.round (speech.start + toFloat v.speechPadSamples)) < toFloat v.minSpeechSamples

def doVadFlushFloat (s : VadIterator × List OpenInterval) :
    Except Fault (VadIterator × List OpenInterval) :=
  if s.1.triggered then do
    let speeches ← setBackEnd s.2 (toFloat s.1.totalSampleSize)
    pure ({ s.1 with triggered := false }, speeches)
  else .ok s

/-- `VadIterator::DoVad`. -/
def doVadFloat (v : VadIterator) : Except Fault (VadIterator × List Interval) := do
  let s ← v.outputsProb.foldlM doVadStepFloat (v, [])
  let (v, speeches) ← doVadFlushFloat s
  let speeches ← speeches.mapM OpenInterval.read
  pure (v.resetStates, speeches.filter fun speech => !v.tooShortFloat speech)

/-- `VadIterator::GetSpeechTimestamps`. -/
def getSpeechTimestampsFloat (v : VadIterator) : Except Fault (VadIterator × List Interval) := do
  let (v, speeches) ← v.doVadFloat
  if v.printAsSamples then pure (v, speeches)
  else
    pure (v, speeches.map fun speech =>
      ⟨single.round (speech.start / toFloat v.sampleRate),
        single.round (speech.stop / toFloat v.sampleRate)⟩)

/-! ### The segmenter inside the object -/

/-- A window is high from the threshold on, and low below `threshold - 0.15f`. -/
def levelFloat (v : VadIterator) (p : ℚ) : Level :=
  if v.threshold ≤ p then .high else if p < v.lowThreshold then .low else .middle

theorem lowThreshold_le {v : VadIterator} (h : single.Holds v.threshold) :
    v.lowThreshold ≤ v.threshold := by
  have hbelow : v.threshold - single.round 0.15 ≤ v.threshold :=
    sub_le_self _ (single.round_nonneg (by norm_num))
  have hround := single.round_mono hbelow
  rwa [single.round_of_holds h] at hround

theorem levelFloat_of_lt {v : VadIterator} (h : single.Holds v.threshold) {p : ℚ}
    (hp : p < v.lowThreshold) : v.levelFloat p = .low := by
  rw [levelFloat, if_neg (hp.trans_le (lowThreshold_le h)).not_ge, if_pos hp]

/-- A probability that has the same level without any rounding. -/
def snap (v : VadIterator) (p : ℚ) : ℚ :=
  match v.levelFloat p with
  | .high => v.threshold
  | .middle => v.threshold - 0.15
  | .low => v.threshold - 1

/-- The interval of a segment, with a `float` for each bound. -/
def floatIntervalOf (v : VadIterator) (total : ℤ) (g : Segment) : Interval :=
  (v.intervalOf total g).rounded

/-- The intervals by the groups of high windows, without an order of reading. -/
def nonStreamingFloat (v : VadIterator) (p : List ℚ) (total : ℤ) : List Interval :=
  let w := p.map v.levelFloat
  let intervals := (groups v.closes w).map fun g =>
    v.floatIntervalOf total (segmentOf v.closes w g)
  intervals.filter fun s => !v.tooShortFloat s

/-- The variables of the loop, with the bounds rounded. -/
def roundBounds (s : VadIterator × List OpenInterval) : VadIterator × List OpenInterval :=
  (s.1, s.2.map OpenInterval.rounded)

variable {v : VadIterator}

@[simp] theorem le_snap_iff {x : ℚ} : v.threshold ≤ v.snap x ↔ v.threshold ≤ x := by
  unfold snap levelFloat
  by_cases hhigh : v.threshold ≤ x
  · simp [hhigh]
  · by_cases hlow : x < v.lowThreshold <;> norm_num [hhigh, hlow]

theorem snap_lt_iff {x : ℚ} (hhigh : ¬ v.threshold ≤ x) :
    v.snap x < v.threshold - 0.15 ↔ x < v.lowThreshold := by
  unfold snap levelFloat
  rw [if_neg hhigh]
  by_cases hlow : x < v.lowThreshold
  · rw [if_pos hlow]
    norm_num [hlow]
  · rw [if_neg hlow]
    simp [hlow]

@[simp] theorem level_snap (x : ℚ) : v.level (v.snap x) = v.levelFloat x := by
  unfold level levelFloat
  by_cases hhigh : v.threshold ≤ x
  · rw [if_pos (le_snap_iff.mpr hhigh), if_pos hhigh]
  · rw [if_neg (mt le_snap_iff.mp hhigh), if_neg hhigh]
    simp only [snap_lt_iff hhigh]

@[simp] theorem setBackEnd_rounded (speeches : List OpenInterval) (stop : ℚ) :
    setBackEnd (speeches.map OpenInterval.rounded) (single.round stop) =
      (setBackEnd speeches stop).map (List.map OpenInterval.rounded) := by
  unfold setBackEnd
  rw [List.getLast?_map]
  cases speeches.getLast? with
  | none => rfl
  | some segment =>
      rw [Option.map_some, ← List.map_dropLast]
      simp [Except.map, OpenInterval.rounded]

/-- The bound that is written is rounded, and the other variables are the same. -/
theorem bind_setBackEnd_rounded (u : VadIterator) (speeches : List OpenInterval) (stop : ℚ) :
    (do
      let speeches ← setBackEnd (speeches.map OpenInterval.rounded) (single.round stop)
      pure (u, speeches)) =
    (do
      let speeches ← setBackEnd speeches stop
      pure (u, speeches)).map roundBounds := by
  rw [setBackEnd_rounded]
  cases setBackEnd speeches stop with
  | error fault => rfl
  | ok closed => rfl

@[simp] theorem quietWindowFloat_roundBounds (s : VadIterator × List OpenInterval) :
    quietWindowFloat (roundBounds s) = (quietWindow s).map roundBounds := by
  obtain ⟨v, speeches⟩ := s
  by_cases htempEnd : v.tempEnd = 0
  · simp only [quietWindowFloat, quietWindow, roundBounds, toFloat, htempEnd, if_true]
    split
    · exact bind_setBackEnd_rounded _ _ _
    · rfl
  · simp only [quietWindowFloat, quietWindow, roundBounds, toFloat, htempEnd, if_false]
    split
    · exact bind_setBackEnd_rounded _ _ _
    · rfl

/-- One iteration: a probability of the same level, and the bounds rounded. -/
@[simp] theorem doVadStepFloat_roundBounds (s : VadIterator × List OpenInterval) (x : ℚ) :
    doVadStepFloat (roundBounds s) x = (doVadStep s (s.1.snap x)).map roundBounds := by
  obtain ⟨v, speeches⟩ := s
  by_cases hhigh : v.threshold ≤ x
  · by_cases htempEnd : v.tempEnd = 0 <;> by_cases htriggered : v.triggered <;>
      simp [doVadStepFloat, doVadStep, roundBounds, le_snap_iff, hhigh, htempEnd, htriggered,
        Except.map, OpenInterval.rounded, toFloat]
  · have hlow := snap_lt_iff hhigh
    rw [lowThreshold] at hlow
    by_cases htriggered : v.triggered
    · by_cases hquiet : x < single.round (v.threshold - single.round 0.15)
      · have hcall := quietWindowFloat_roundBounds
          ({ v with currentSample := v.currentSample + v.windowSizeSamples }, speeches)
        simpa [doVadStepFloat, doVadStep, roundBounds, le_snap_iff, hhigh, htriggered, hlow,
          lowThreshold, hquiet] using hcall
      · simp [doVadStepFloat, doVadStep, roundBounds, le_snap_iff, hhigh, htriggered, hlow,
          lowThreshold, hquiet, Except.map]
    · simp [doVadStepFloat, doVadStep, roundBounds, le_snap_iff, hhigh, htriggered, Except.map]

@[simp] theorem doVadFlushFloat_roundBounds (s : VadIterator × List OpenInterval) :
    doVadFlushFloat (roundBounds s) = (doVadFlush s).map roundBounds := by
  obtain ⟨v, speeches⟩ := s
  by_cases htriggered : v.triggered
  · simp only [doVadFlushFloat, doVadFlush, roundBounds, toFloat, htriggered, if_true]
    exact bind_setBackEnd_rounded _ _ _
  · simp only [doVadFlushFloat, doVadFlush, roundBounds, htriggered]
    rfl

theorem doVadStepFloat_scan (hW : 0 < v.windowSizeSamples) {n : ℕ} {s : State}
    (hs : s.phase.Before n) (x : ℚ) :
    doVadStepFloat (roundBounds (v.scan n s)) x =
      .ok (roundBounds (v.scan (n + 1) (step v.closes n s (v.levelFloat x)))) := by
  have hsnap : (v.scan n s).1.snap x = v.snap x := rfl
  rw [doVadStepFloat_roundBounds, hsnap, doVadStep_scan hW hs, level_snap]
  rfl

theorem foldlM_doVadStepFloat_scan (hW : 0 < v.windowSizeSamples) (p : List ℚ) {n : ℕ} {s : State}
    (hs : s.Sound v.closes n) :
    p.foldlM doVadStepFloat (roundBounds (v.scan n s)) =
      .ok (roundBounds (v.scan (n + p.length) (runFrom v.closes n s (p.map v.levelFloat)))) := by
  induction p generalizing n s with
  | nil => rfl
  | cons x p ih =>
      rw [List.foldlM_cons, doVadStepFloat_scan hW hs.phase]
      simp only [List.map_cons, runFrom_cons, List.length_cons]
      rw [show n + (p.length + 1) = n + 1 + p.length by omega]
      exact ih (hs.step _)

@[simp] theorem mapM_read_rounded (v : VadIterator) (total : ℤ) (gs : List Segment) :
    ((gs.map (v.closedInterval total)).map OpenInterval.rounded).mapM OpenInterval.read =
      .ok (gs.map (v.floatIntervalOf total)) := by
  induction gs with
  | nil => rfl
  | cons g gs ih => rw [List.map_cons, List.map_cons, List.mapM_cons, ih]; rfl

/-- What `DoVad` returns, and the object it leaves behind. -/
theorem doVadFloat_scored (hW : 0 < v.windowSizeSamples) (p : List ℚ) (total : ℤ) :
    (v.scored p total).doVadFloat =
      .ok (v.resetStates,
        ((segments v.closes (p.map v.levelFloat)).map (v.floatIntervalOf total)).filter
          fun speech => !v.tooShortFloat speech) := by
  have hloop := foldlM_doVadStepFloat_scan (v := v.scored p total) hW p State.sound_init
  have hstart : (v.scored p total, []) = roundBounds ((v.scored p total).scan 0 .init) := by
    rw [← scored_eq_scan]
    rfl
  unfold doVadFloat
  rw [hstart, show (v.scored p total).outputsProb = p from rfl, hloop]
  simp only [bind, Except.bind, doVadFlushFloat_roundBounds, doVadFlush_scan, Except.map]
  simp only [roundBounds, mapM_read_rounded]
  rfl

theorem nonStreamingFloat_eq (hW : 0 < v.windowSizeSamples) (p : List ℚ) (total : ℤ) :
    v.nonStreamingFloat p total =
      ((segments v.closes (p.map v.levelFloat)).map (v.floatIntervalOf total)).filter
        fun speech => !v.tooShortFloat speech := by
  rw [segments_eq_groups (closes_mono hW), List.map_map]
  rfl

/-- `DoVad` returns the intervals of the non-streaming definition. -/
theorem doVadFloat_eq_nonStreamingFloat (hW : 0 < v.windowSizeSamples) (p : List ℚ)
    (total : ℤ) :
    (v.scored p total).doVadFloat = .ok (v.resetStates, v.nonStreamingFloat p total) := by
  rw [doVadFloat_scored hW, nonStreamingFloat_eq hW]

/-! ### What a `float` can hold -/

/-- A capture whose bounds are all at most `2 ^ 24`. -/
structure FitsFloat (v : VadIterator) (windows : ℕ) (total : ℤ) : Prop where
  window : 0 < v.windowSizeSamples
  pad : 0 ≤ v.speechPadSamples
  speech : |v.minSpeechSamples| ≤ 2 ^ 24
  windows : windows * v.windowSizeSamples ≤ total
  total : total + 2 * v.speechPadSamples ≤ 2 ^ 24

theorem tooShortFloat_eq {start stop : ℤ} (hpad : 0 ≤ v.speechPadSamples)
    (hspeech : |v.minSpeechSamples| ≤ 2 ^ 24) (hstart : 0 ≤ start) (hstop : 0 ≤ stop)
    (hstart' : start + 2 * v.speechPadSamples ≤ 2 ^ 24) (hstop' : stop ≤ 2 ^ 24) :
    v.tooShortFloat ⟨start, stop⟩ = v.tooShort ⟨start, stop⟩ := by
  have hround : ∀ n : ℤ, |n| ≤ 2 ^ 24 → single.round (n : ℚ) = n := fun n hn => toFloat_eq hn
  have hfloat : toFloat v.speechPadSamples = v.speechPadSamples :=
    toFloat_eq (abs_le.mpr (by constructor <;> omega))
  have hleft : single.round ((stop : ℚ) - v.speechPadSamples) =
      (stop - v.speechPadSamples : ℤ) := by
    rw [← Int.cast_sub]
    exact hround _ (abs_le.mpr (by constructor <;> omega))
  have hright : single.round ((start : ℚ) + v.speechPadSamples) =
      (start + v.speechPadSamples : ℤ) := by
    rw [← Int.cast_add]
    exact hround _ (abs_le.mpr (by constructor <;> omega))
  have hlength : single.round (((stop - v.speechPadSamples : ℤ) : ℚ) -
      (start + v.speechPadSamples : ℤ)) =
        (stop - v.speechPadSamples - (start + v.speechPadSamples) : ℤ) := by
    rw [← Int.cast_sub]
    exact hround _ (abs_le.mpr (by constructor <;> omega))
  rw [tooShortFloat, tooShort]
  dsimp only
  rw [hfloat, hleft, hright, hlength, toFloat_eq hspeech]
  push_cast
  rfl

/-- The bounds of a segment are whole numbers of samples, in the capture or in
its padding. -/
theorem FitsFloat.exists_bounds {windows : ℕ} {total : ℤ} (hv : v.FitsFloat windows total)
    {w : List Level} (hw : w.length = windows) {g : Segment} (hg : g ∈ segments v.closes w) :
    ∃ start stop : ℤ, v.intervalOf total g = ⟨start, stop⟩ ∧ 0 ≤ start ∧ 0 ≤ stop ∧
      start ≤ total ∧ stop ≤ total + v.speechPadSamples := by
  obtain ⟨hW, hpad, -, hwindows, -⟩ := hv
  have hsound := sound_run v.closes w
  rw [hw] at hsound
  have hinside : ∀ i < windows, 0 ≤ (i : ℤ) * v.windowSizeSamples ∧
      (i : ℤ) * v.windowSizeSamples ≤ total := by
    intro i hi
    have hle : (i : ℤ) * v.windowSizeSamples ≤ windows * v.windowSizeSamples :=
      Int.mul_le_mul_of_nonneg_right (by exact_mod_cast hi.le) hW.le
    exact ⟨Int.mul_nonneg (Int.natCast_nonneg i) hW.le, hle.trans hwindows⟩
  obtain hdone | ⟨first, rfl, -⟩ := State.mem_flush_iff.mp hg
  · obtain ⟨low, k, hquiet, hfirst, hle, hk, -⟩ := hsound.done g hdone
    obtain ⟨hstart, hstart'⟩ := hinside g.first (by omega)
    obtain ⟨hstop, hstop'⟩ := hinside low (by omega)
    refine ⟨max 0 (g.first * v.windowSizeSamples - v.speechPadSamples),
      low * v.windowSizeSamples + v.speechPadSamples, ?_, by omega, by omega, by omega, by omega⟩
    rw [intervalOf, hquiet, startOf]
    rfl
  · have hfirst : first < w.length := first_lt_of_mem_segments hg
    obtain ⟨hstart, hstart'⟩ := hinside first (hw ▸ hfirst)
    exact ⟨max 0 (first * v.windowSizeSamples - v.speechPadSamples), total, rfl, by omega,
      by omega, by omega, by omega⟩

/-- Then no bound is rounded, and the filter computes exactly. -/
theorem FitsFloat.filter_eq {windows : ℕ} {total : ℤ} (hv : v.FitsFloat windows total)
    {w : List Level} (hw : w.length = windows) :
    ((segments v.closes w).map (v.floatIntervalOf total)).filter
        (fun speech => !v.tooShortFloat speech) =
      ((segments v.closes w).map (v.intervalOf total)).filter
        fun speech => !v.tooShort speech := by
  have hpad := hv.pad
  have htotal := hv.total
  have hbounds : ∀ g ∈ segments v.closes w, v.floatIntervalOf total g = v.intervalOf total g ∧
      v.tooShortFloat (v.intervalOf total g) = v.tooShort (v.intervalOf total g) := by
    intro g hg
    obtain ⟨start, stop, hinterval, hstart, hstop, hstart', hstop'⟩ := hv.exists_bounds hw hg
    rw [floatIntervalOf, hinterval]
    refine ⟨?_, tooShortFloat_eq hpad hv.speech hstart hstop (by omega) (by omega)⟩
    have hfloat : ∀ n : ℤ, 0 ≤ n → n ≤ 2 ^ 24 → single.round (n : ℚ) = n :=
      fun n hn hle => toFloat_eq (abs_le.mpr ⟨by omega, hle⟩)
    rw [Interval.rounded, hfloat start hstart (by omega), hfloat stop hstop (by omega)]
  have hmap : (segments v.closes w).map (v.floatIntervalOf total) =
      (segments v.closes w).map (v.intervalOf total) :=
    List.map_congr_left fun g hg => (hbounds g hg).1
  rw [hmap]
  apply List.filter_congr
  intro speech hspeech
  obtain ⟨g, hg, rfl⟩ := List.mem_map.mp hspeech
  rw [(hbounds g hg).2]

/-- Below `2 ^ 24` only the lower threshold is rounded. -/
theorem FitsFloat.nonStreamingFloat_eq {p : List ℚ} {total : ℤ} (hv : v.FitsFloat p.length total) :
    v.nonStreamingFloat p total =
      ((segments v.closes ((p.map v.snap).map v.level)).map (v.intervalOf total)).filter
        fun speech => !v.tooShort speech := by
  have hlevels : (p.map v.snap).map v.level = p.map v.levelFloat := by
    rw [List.map_map]
    exact List.map_congr_left fun x _ => level_snap x
  rw [VadIterator.nonStreamingFloat_eq hv.window, hlevels, hv.filter_eq (List.length_map _)]

/-- **`DoVad` in single precision.** For a capture of at most `2 ^ 24` samples,
padding included, no rounding changes an interval, if no probability lies
between the two lower thresholds. -/
theorem doVadFloat_eq {p : List ℚ} {total : ℤ} (hv : v.FitsFloat p.length total)
    (hgap : ∀ x ∈ p, x < v.lowThreshold ↔ x < v.threshold - 0.15) :
    (v.scored p total).doVadFloat = (v.scored p total).doVad := by
  have hlevels : p.map v.levelFloat = p.map v.level := by
    apply List.map_congr_left
    intro x hx
    simp only [levelFloat, level, hgap x hx]
  rw [doVadFloat_scored hv.window, doVad_scored hv.window, hlevels,
    hv.filter_eq (List.length_map _)]

/-- Two segments at 16 kHz, of which the second is open at the end. -/
theorem doVadFloat_eq_sixteenKilohertz :
    ((rcsVadCreate 16000 0.5).scored
        (List.replicate 12 0.9 ++ List.replicate 6 0.1 ++ List.replicate 12 0.9) 15360).doVadFloat =
      ((rcsVadCreate 16000 0.5).scored
        (List.replicate 12 0.9 ++ List.replicate 6 0.1 ++ List.replicate 12 0.9) 15360).doVad :=
  doVadFloat_eq ⟨by decide +kernel, by decide +kernel, by decide +kernel, by decide +kernel,
    by decide +kernel⟩ (by decide +kernel)

/-- At the threshold 0.5 the two lower thresholds are `2 ^ -27` apart or less. -/
example : (rcsVadCreate 16000 0.5).lowThreshold < 0.35 ∧
    0.35 - (rcsVadCreate 16000 0.5).lowThreshold ≤ 1 / 2 ^ 27 := by
  decide +kernel

end VadIterator

/-- `RcsVad::has_voice_activity`. -/
def hasVoiceActivityFloat {ε : Type} (session : Session ε) (fuel : ℕ) (e : Engine)
    (data : List Int16) : Option (Except Fault (Engine × Except ε Bool)) :=
  (speechProbs session fuel e (inputData data)).map fun outcome => do
    match ← outcome with
    | (e, .error x) => pure (e, .error x)
    | (e, .ok ()) =>
        let (v, speeches) ← e.vad.getSpeechTimestampsFloat
        pure ({ e with vad := v }, .ok (0 < speeches.length))

end RadioChatter.Vad
