import RadioChatter.Vad.Verdict

/-!
The intervals of a capture lie inside it, one after the other.

Padding moves every start back and every end forward, so neither is a matter
of one segment. What keeps the intervals apart, and inside the capture, is the
silence that has to pass before a segment is closed: with the default
durations it is longer than two paddings at every sample rate.
-/

namespace RadioChatter.Vad

open Checked Hysteresis

namespace VadIterator

/-- The silence that closes a segment, with the window that ends it, is longer
than the padding around it. -/
structure Spaced (v : VadIterator) : Prop where
  window : 0 < v.windowSizeSamples
  pad : 0 ≤ v.speechPadSamples
  speech : 0 < v.minSpeechSamples
  silence : 2 * v.speechPadSamples < v.minSilenceSamples + v.windowSizeSamples

variable {v : VadIterator}

/-- Two segments that follow each other stay apart with their padding. -/
theorem Spaced.stop_lt_start (hv : v.Spaced) {total : ℤ} {g g' : Segment}
    (h : g.Precedes v.closes g') :
    (v.intervalOf total g).stop < (v.intervalOf total g').start := by
  obtain ⟨low, k, hquiet, hle, hclose, hlt⟩ := h
  obtain ⟨hW, hpad, -, hspaced⟩ := hv
  have hspan : v.minSilenceSamples ≤ (k - low : ℕ) * v.windowSizeSamples := by
    simpa [closes] using hclose
  rw [Nat.cast_sub hle, sub_mul] at hspan
  have hnext : (k + 1 : ℤ) * v.windowSizeSamples ≤ g'.first * v.windowSizeSamples :=
    Int.mul_le_mul_of_nonneg_right (by exact_mod_cast hlt) hW.le
  rw [add_mul, one_mul] at hnext
  have hinteger : (low : ℤ) * v.windowSizeSamples + v.speechPadSamples <
      max 0 (g'.first * v.windowSizeSamples - v.speechPadSamples) := by
    apply lt_max_of_lt_right
    omega
  have hstop : (v.intervalOf total g).stop = v.stopOf low := by
    simp only [intervalOf, hquiet]
  rw [hstop, show (v.intervalOf total g').start = v.startOf g'.first from rfl, stopOf, startOf]
  exact_mod_cast hinteger

/-- An interval that survives the filter is long enough for its padding, too. -/
theorem minSpeech_le_of_longEnough {total : ℤ} {g : Segment} (h : v.LongEnough total g) :
    (v.minSpeechSamples + 2 * v.speechPadSamples : ℚ) ≤
      (v.intervalOf total g).stop - (v.intervalOf total g).start := by
  unfold LongEnough at h
  linarith

theorem start_nonneg (total : ℤ) (g : Segment) : 0 ≤ (v.intervalOf total g).start := by
  rw [show (v.intervalOf total g).start = v.startOf g.first from rfl, startOf]
  exact_mod_cast le_max_left (0 : ℤ) _

theorem Spaced.stop_le_total (hv : v.Spaced) {p : List ℚ} {total : ℤ}
    (htotal : p.length * v.windowSizeSamples ≤ total) {g : Segment}
    (hg : g ∈ segments v.closes (p.map v.level)) : (v.intervalOf total g).stop ≤ total := by
  have hpad : v.speechPadSamples ≤ v.minSilenceSamples + v.windowSizeSamples := by
    have hspaced := hv.silence
    have hpos := hv.pad
    omega
  obtain ⟨first, quiet⟩ := g
  cases quiet with
  | none => exact le_refl _
  | some low =>
      have hclosed := closed_of_mem_segments hg rfl
      rw [List.length_map] at hclosed
      obtain ⟨low', hlow', hstop⟩ := stopOf_le_total hv.window hpad htotal hclosed
      obtain rfl := Option.some.inj hlow'
      exact hstop

/-- What `DoVad` promises about its intervals in a capture of `total` samples. -/
structure WellFormed (v : VadIterator) (total : ℤ) (speeches : List Interval) : Prop where
  inside : ∀ s ∈ speeches, 0 ≤ s.start ∧ s.start < s.stop ∧ s.stop ≤ total
  long : ∀ s ∈ speeches,
    (v.minSpeechSamples + 2 * v.speechPadSamples : ℚ) ≤ s.stop - s.start
  apart : speeches.Pairwise fun s s' => s.stop < s'.start

theorem Spaced.wellFormed (hv : v.Spaced) {p : List ℚ} {total : ℤ}
    (htotal : p.length * v.windowSizeSamples ≤ total) :
    v.WellFormed total (((segments v.closes (p.map v.level)).map (v.intervalOf total)).filter
      fun speech => !v.tooShort speech) := by
  have hkept : ∀ s ∈ ((segments v.closes (p.map v.level)).map (v.intervalOf total)).filter
      (fun speech => !v.tooShort speech), ∃ g ∈ segments v.closes (p.map v.level),
        s = v.intervalOf total g ∧ v.LongEnough total g := by
    intro s hs
    rw [List.mem_filter, tooShort_eq, decide_eq_true_eq] at hs
    obtain ⟨hmem, hlong⟩ := hs
    obtain ⟨g, hg, rfl⟩ := List.mem_map.mp hmem
    exact ⟨g, hg, rfl, hlong⟩
  refine ⟨?_, ?_, ?_⟩
  · intro s hs
    obtain ⟨g, hg, rfl, hlong⟩ := hkept s hs
    refine ⟨start_nonneg total g, ?_, hv.stop_le_total htotal hg⟩
    have hlength := minSpeech_le_of_longEnough hlong
    have hspeech : (0 : ℚ) < v.minSpeechSamples := by exact_mod_cast hv.speech
    have hpad : (0 : ℚ) ≤ v.speechPadSamples := by exact_mod_cast hv.pad
    linarith
  · intro s hs
    obtain ⟨g, -, rfl, hlong⟩ := hkept s hs
    exact minSpeech_le_of_longEnough hlong
  · -- The filter keeps the order of the segments.
    apply List.Pairwise.filter
    rw [List.pairwise_map]
    exact (pairwise_segments v.closes _).imp fun h => hv.stop_lt_start h

end VadIterator

open VadIterator

/-- The constructor with its default durations, then `SetVariables`. -/
def defaultAt (sampleRate : ℤ) (threshold : ℚ) : VadIterator :=
  { newVadIterator defaultOptions with
    threshold := threshold
    sampleRate := sampleRate }.setVariables

theorem spaced_defaultAt {sampleRate : ℤ} (h : 1000 ≤ sampleRate) (t : ℚ) :
    (defaultAt sampleRate t).Spaced := by
  have hwindow : (defaultAt sampleRate t).windowSizeSamples = sampleRate / 1000 * 32 := by
    rw [← Int.tdiv_eq_ediv_of_nonneg (by omega)]
    rfl
  have hproduct : ∀ ms : ℤ, 0 ≤ ms → (sampleRate * ms).tdiv 1000 = sampleRate * ms / 1000 :=
    fun ms hms => Int.tdiv_eq_ediv_of_nonneg (Int.mul_nonneg (by omega) hms)
  have hpad : (defaultAt sampleRate t).speechPadSamples = sampleRate * 30 / 1000 :=
    hproduct 30 (by decide)
  have hspeech : (defaultAt sampleRate t).minSpeechSamples = sampleRate * 250 / 1000 :=
    hproduct 250 (by decide)
  have hsilence : (defaultAt sampleRate t).minSilenceSamples = sampleRate * 100 / 1000 :=
    hproduct 100 (by decide)
  refine ⟨?_, ?_, ?_, ?_⟩
  · rw [hwindow]
    omega
  · rw [hpad]
    omega
  · rw [hspeech]
    omega
  · rw [hwindow, hpad, hsilence]
    omega

/-- **The intervals of a capture**, at every sample rate that has windows. -/
theorem doVad_wellFormed {sampleRate : ℤ} (h : 1000 ≤ sampleRate) (t : ℚ) {p : List ℚ} {total : ℤ}
    (hp : (p.length : ℤ) = total / (defaultAt sampleRate t).windowSizeSamples) :
    ∃ speeches, ((defaultAt sampleRate t).scored p total).doVad =
        .ok ((defaultAt sampleRate t).resetStates, speeches) ∧
      (defaultAt sampleRate t).WellFormed total speeches := by
  have hspaced := spaced_defaultAt h t
  have htotal : p.length * (defaultAt sampleRate t).windowSizeSamples ≤ total := by
    rw [hp]
    exact Int.ediv_mul_le total hspaced.window.ne'
  exact ⟨_, doVad_scored hspaced.window p total, hspaced.wellFormed htotal⟩

/-- Two utterances and the silence between them, at 22.05 kHz. -/
theorem doVad_wellFormed_two :
    ∃ speeches, ((defaultAt 22050 0.5).scored
          (List.replicate 12 0.9 ++ List.replicate 6 0.1 ++ List.replicate 12 0.9) 21200).doVad =
        .ok ((defaultAt 22050 0.5).resetStates, speeches) ∧
      (defaultAt 22050 0.5).WellFormed 21200 speeches :=
  doVad_wellFormed (by decide) 0.5 (by decide +kernel)

end RadioChatter.Vad
