import RadioChatter.Vad.Iterator
import RadioChatter.Lib.Grouping
import Mathlib.Tactic.Ring
import Mathlib.Tactic.Linarith

/-!
`DoVad` is the segmenter with hysteresis.

The object keeps the phase of the segmenter in `triggered` and in `temp_end`,
whose value 0 stands for no silence; the two readings agree because a window
ends at a positive sample as soon as windows have a positive length. One
iteration of the loop is then one step of the segmenter, and the intervals
are its segments measured in samples.
-/

namespace RadioChatter.Vad.VadIterator

open Checked Hysteresis

/-- A window is high from the threshold on, and low below the hysteresis band
under it. -/
def level (v : VadIterator) (p : ℚ) : Level :=
  if v.threshold ≤ p then .high else if p < v.threshold - 0.15 then .low else .middle

/-- A silence of `d` windows closes a segment. -/
def closes (v : VadIterator) (d : ℕ) : Bool :=
  v.minSilenceSamples ≤ d * v.windowSizeSamples

/-- A window index in padded samples, for the start of an interval. -/
def startOf (v : VadIterator) (i : ℕ) : ℚ :=
  (max 0 (i * v.windowSizeSamples - v.speechPadSamples) : ℤ)

/-- A window index in padded samples, for the end of an interval. -/
def stopOf (v : VadIterator) (j : ℕ) : ℚ :=
  (j * v.windowSizeSamples + v.speechPadSamples : ℤ)

/-- The interval of a segment in a capture of `total` samples. -/
def intervalOf (v : VadIterator) (total : ℤ) (g : Segment) : Interval where
  start := v.startOf g.first
  stop := match g.quiet with
    | some j => v.stopOf j
    | none => total

/-- The object after `SpeechProbs` has computed `p` on a capture of `total`
samples. -/
def scored (v : VadIterator) (p : List ℚ) (total : ℤ) : VadIterator :=
  { v with
    triggered := false
    currentSample := 0
    tempEnd := 0
    outputsProb := p
    totalSampleSize := total }

/-- The definition of the detected intervals without reference to any order
of reading: the groups of high windows whose interval is long enough. -/
def nonStreaming (v : VadIterator) (p : List ℚ) (total : ℤ) : List Interval :=
  let w := p.map v.level
  let intervals := (groups v.closes w).map fun g => v.intervalOf total (segmentOf v.closes w g)
  intervals.filter fun s =>
    v.minSpeechSamples ≤ (s.stop - v.speechPadSamples) - (s.start + v.speechPadSamples)

/-! ### The segmenter inside the object -/

def openTail (v : VadIterator) : Phase → List OpenInterval
  | .idle => []
  | .active first => [⟨v.startOf first, none⟩]
  | .pending first _ => [⟨v.startOf first, none⟩]

def closedInterval (v : VadIterator) (total : ℤ) (g : Segment) : OpenInterval :=
  ⟨(v.intervalOf total g).start, some (v.intervalOf total g).stop⟩

def tempEndOf (v : VadIterator) : Phase → ℤ
  | .pending _ low => (low + 1) * v.windowSizeSamples
  | _ => 0

/-- The loop state of `DoVad` before window `n`, when the segmenter is in
state `s`. -/
def scan (v : VadIterator) (n : ℕ) (s : State) : VadIterator × List OpenInterval :=
  ({ v with
      currentSample := n * v.windowSizeSamples
      triggered := s.phase ≠ .idle
      tempEnd := v.tempEndOf s.phase },
    s.done.map (v.closedInterval v.totalSampleSize) ++ v.openTail s.phase)

/-- The loop of `DoVad` begins with the segmenter at rest. -/
theorem scored_eq_scan (v : VadIterator) (p : List ℚ) (total : ℤ) :
    (v.scored p total, []) = (v.scored p total).scan 0 .init := by
  simp [scan, scored, State.init, tempEndOf, openTail]

theorem closes_mono {v : VadIterator} (hW : 0 < v.windowSizeSamples) :
    ∀ d e, d ≤ e → v.closes d = true → v.closes e = true := by
  intro d e hde hd
  simp only [closes, decide_eq_true_eq] at hd ⊢
  have hmul : (d : ℤ) * v.windowSizeSamples ≤ e * v.windowSizeSamples :=
    Int.mul_le_mul_of_nonneg_right (by exact_mod_cast hde) hW.le
  omega

@[simp] theorem setBackEnd_snoc (speeches : List OpenInterval) (segment : OpenInterval) (stop : ℚ) :
    setBackEnd (speeches ++ [segment]) stop =
      .ok (speeches ++ [{ segment with stop := some stop }]) := by
  simp [setBackEnd]

/-- A low window of a silence that began at window `low`: either `temp_end`
says so, or this window is where it begins. -/
theorem quietWindow_scan {v : VadIterator} (hW : 0 < v.windowSizeSamples) {n first low : ℕ}
    {tempEnd : ℤ} (hlow : low ≤ n)
    (ht : tempEnd = (low + 1) * v.windowSizeSamples ∨ tempEnd = 0 ∧ low = n)
    (done : List Segment) :
    quietWindow ({ v with
        currentSample := (n + 1) * v.windowSizeSamples
        triggered := true
        tempEnd := tempEnd },
      done.map (v.closedInterval v.totalSampleSize) ++ [⟨v.startOf first, none⟩]) =
    .ok (v.scan (n + 1) (State.settle v.closes first low n done)) := by
  have hne : (low + 1 : ℤ) * v.windowSizeSamples ≠ 0 := by positivity
  have hspan : (n + 1 : ℤ) * v.windowSizeSamples - (low + 1) * v.windowSizeSamples =
      ((n - low : ℕ) : ℤ) * v.windowSizeSamples := by
    rw [Nat.cast_sub hlow]
    ring
  have hstop : (low + 1 : ℤ) * v.windowSizeSamples + v.speechPadSamples - v.windowSizeSamples =
      low * v.windowSizeSamples + v.speechPadSamples := by ring
  -- Whatever `temp_end` was, the test sees the window where the silence began.
  have hset : ∀ a : VadIterator, a.tempEnd = tempEnd → a.currentSample =
        (n + 1) * v.windowSizeSamples →
      (if a.tempEnd = 0 then { a with tempEnd := a.currentSample } else a) =
        { a with tempEnd := (low + 1) * v.windowSizeSamples } := by
    rintro a rfl hcur
    rcases ht with ht | ⟨ht, rfl⟩
    · rw [if_neg (ht ▸ hne), ← ht]
    · rw [if_pos ht, hcur]
  unfold quietWindow State.settle
  rw [hset _ rfl rfl]
  simp only [hspan, hstop]
  by_cases hc : v.minSilenceSamples ≤ ((n - low : ℕ) : ℤ) * v.windowSizeSamples
  · have hcl : v.closes (n - low) = true := by simpa [closes] using hc
    rw [if_pos hc, if_pos hcl, setBackEnd_snoc]
    simp [scan, openTail, tempEndOf, closedInterval, intervalOf, stopOf, pure, Except.pure, bind,
      Except.bind]
  · have hcl : ¬ v.closes (n - low) = true := by simpa [closes] using hc
    rw [if_neg hc, if_neg hcl]
    simp [scan, openTail, tempEndOf]

theorem doVadStep_scan {v : VadIterator} (hW : 0 < v.windowSizeSamples) {n : ℕ} {s : State}
    (hs : s.phase.Before n) (p : ℚ) :
    doVadStep (v.scan n s) p = .ok (v.scan (n + 1) (step v.closes n s (v.level p))) := by
  have hcur : (n : ℤ) * v.windowSizeSamples + v.windowSizeSamples =
      (n + 1) * v.windowSizeSamples := by ring
  have hstart : (n + 1 : ℤ) * v.windowSizeSamples - v.speechPadSamples - v.windowSizeSamples =
      n * v.windowSizeSamples - v.speechPadSamples := by ring
  obtain ⟨phase, done⟩ := s
  by_cases hhigh : v.threshold ≤ p
  · have hlevel : v.level p = .high := if_pos hhigh
    rw [hlevel]
    cases phase with
    | idle =>
        simp [doVadStep, scan, openTail, tempEndOf, step, hhigh, hcur, hstart, startOf]
    | active first => simp [doVadStep, scan, openTail, tempEndOf, step, hhigh, hcur]
    | pending first low =>
        have hne : (low + 1 : ℤ) * v.windowSizeSamples ≠ 0 := by positivity
        simp [doVadStep, scan, openTail, tempEndOf, step, hhigh, hcur, hne]
  · by_cases hlow : p < v.threshold - 0.15
    · have hlevel : v.level p = .low := by rw [level, if_neg hhigh, if_pos hlow]
      rw [hlevel]
      cases phase with
      | idle => simp [doVadStep, scan, openTail, tempEndOf, step, hhigh, hcur]
      | active first =>
          -- The silence begins at this very window.
          rw [show step v.closes n ⟨.active first, done⟩ .low =
              State.settle v.closes first n n done from rfl,
            ← quietWindow_scan hW (le_refl n) (Or.inr ⟨rfl, rfl⟩) done]
          simp [doVadStep, scan, openTail, tempEndOf, hhigh, hlow, hcur]
      | pending first low =>
          rw [show step v.closes n ⟨.pending first low, done⟩ .low =
              State.settle v.closes first low n done from rfl,
            ← quietWindow_scan hW hs.2.le (Or.inl rfl) done]
          simp [doVadStep, scan, openTail, tempEndOf, hhigh, hlow, hcur]
    · -- Inside the hysteresis band nothing changes but the sample count.
      have hlevel : v.level p = .middle := by rw [level, if_neg hhigh, if_neg hlow]
      rw [hlevel]
      cases phase <;> simp [doVadStep, scan, openTail, tempEndOf, step, hhigh, hlow, hcur]

theorem foldlM_doVadStep_scan {v : VadIterator} (hW : 0 < v.windowSizeSamples) (p : List ℚ)
    {n : ℕ} {s : State} (hs : s.Sound v.closes n) :
    p.foldlM doVadStep (v.scan n s) =
      .ok (v.scan (n + p.length) (runFrom v.closes n s (p.map v.level))) := by
  induction p generalizing n s with
  | nil => rfl
  | cons x p ih =>
      rw [List.foldlM_cons, doVadStep_scan hW hs.phase]
      simp only [List.map_cons, runFrom_cons, List.length_cons]
      rw [show n + (p.length + 1) = n + 1 + p.length by omega]
      exact ih (hs.step _)

@[simp] theorem doVadFlush_scan (v : VadIterator) (n : ℕ) (s : State) :
    doVadFlush (v.scan n s) =
      .ok ({ v with
          currentSample := n * v.windowSizeSamples
          triggered := false
          tempEnd := v.tempEndOf s.phase },
        s.flush.map (v.closedInterval v.totalSampleSize)) := by
  obtain ⟨phase, done⟩ := s
  cases phase with
  | idle => simp [doVadFlush, scan, openTail, State.flush]
  | active first =>
      simp [doVadFlush, scan, openTail, State.flush, setBackEnd_snoc, closedInterval, intervalOf,
        pure, Except.pure, bind, Except.bind]
  | pending first low =>
      simp [doVadFlush, scan, openTail, State.flush, setBackEnd_snoc, closedInterval, intervalOf,
        pure, Except.pure, bind, Except.bind]

@[simp] theorem mapM_read_closedInterval (v : VadIterator) (total : ℤ) (gs : List Segment) :
    (gs.map (v.closedInterval total)).mapM OpenInterval.read =
      .ok (gs.map (v.intervalOf total)) := by
  induction gs with
  | nil => rfl
  | cons g gs ih => rw [List.map_cons, List.mapM_cons, ih]; rfl

/-- What `DoVad` returns, and the object it leaves behind. -/
theorem doVad_scored {v : VadIterator} (hW : 0 < v.windowSizeSamples) (p : List ℚ) (total : ℤ) :
    (v.scored p total).doVad =
      .ok (v.resetStates,
        ((segments v.closes (p.map v.level)).map (v.intervalOf total)).filter
          fun speech => !v.tooShort speech) := by
  have hloop := foldlM_doVadStep_scan (v := v.scored p total) hW p State.sound_init
  unfold doVad
  rw [scored_eq_scan, show (v.scored p total).outputsProb = p from rfl, hloop]
  simp only [bind, Except.bind, doVadFlush_scan, mapM_read_closedInterval]
  rfl

theorem tooShort_eq (v : VadIterator) (speech : Interval) :
    (!v.tooShort speech) = decide (v.minSpeechSamples ≤
      (speech.stop - v.speechPadSamples) - (speech.start + v.speechPadSamples)) := by
  rw [tooShort, ← decide_not]
  simp only [not_lt]

/-- `DoVad` returns the intervals of the non-streaming definition. -/
theorem doVad_eq_nonStreaming {v : VadIterator} (hW : 0 < v.windowSizeSamples) (p : List ℚ)
    (total : ℤ) :
    (v.scored p total).doVad = .ok (v.resetStates, v.nonStreaming p total) := by
  rw [doVad_scored hW, segments_eq_groups (closes_mono hW), List.map_map]
  simp only [tooShort_eq]
  rfl

/-- Ten high windows and five low ones at 16 kHz, in a capture of 15 windows. -/
theorem doVad_eq_nonStreaming_sixteenKilohertz :
    ((rcsVadCreate 16000 0.5).scored (List.replicate 10 0.9 ++ List.replicate 5 0.1) 7680).doVad =
        .ok ((rcsVadCreate 16000 0.5).resetStates,
          (rcsVadCreate 16000 0.5).nonStreaming
            (List.replicate 10 0.9 ++ List.replicate 5 0.1) 7680) ∧
      (rcsVadCreate 16000 0.5).nonStreaming
        (List.replicate 10 0.9 ++ List.replicate 5 0.1) 7680 = [⟨0, 5600⟩] :=
  ⟨doVad_eq_nonStreaming (by decide +kernel) _ _, by decide +kernel⟩

end RadioChatter.Vad.VadIterator
