import RadioChatter.Vad.SinglePrecision
import RadioChatter.Vad.Windows

/-!
The verdict in single precision.

It is positive exactly when one of the segments passes the length filter of the
floats. Every rounding keeps the order, and so raising probabilities or lowering
the threshold cannot take the verdict back here either.
-/

namespace RadioChatter.Vad

open BinaryFloat Checked Hysteresis

namespace VadIterator

variable {v : VadIterator}

/-- Whether `DoVad` returns a non-empty list on the probabilities `p` of a
capture of `total` samples. -/
def verdictFloat (v : VadIterator) (p : List ℚ) (total : ℤ) : Except Fault Bool := do
  let (_, speeches) ← (v.scored p total).doVadFloat
  pure (0 < speeches.length)

/-- The segment survives the length filter. -/
def LongEnoughFloat (v : VadIterator) (total : ℤ) (g : Segment) : Prop :=
  v.tooShortFloat (v.floatIntervalOf total g) = false

instance (v : VadIterator) (total : ℤ) : DecidablePred (v.LongEnoughFloat total) :=
  fun _ => inferInstanceAs (Decidable (_ = _))

/-- The segments of the groups of high windows. -/
def speechSegmentsFloat (v : VadIterator) (p : List ℚ) : List Segment :=
  (groups v.closes (p.map v.levelFloat)).map (segmentOf v.closes (p.map v.levelFloat))

theorem speechSegmentsFloat_eq (hW : 0 < v.windowSizeSamples) (p : List ℚ) :
    v.speechSegmentsFloat p = segments v.closes (p.map v.levelFloat) :=
  (segments_eq_groups (closes_mono hW) _).symm

theorem nonStreamingFloat_ne_nil_iff {p : List ℚ} {total : ℤ} :
    v.nonStreamingFloat p total ≠ [] ↔
      ∃ g ∈ v.speechSegmentsFloat p, v.LongEnoughFloat total g := by
  rw [← List.length_pos_iff, List.length_pos_iff_exists_mem]
  simp only [nonStreamingFloat, speechSegmentsFloat, LongEnoughFloat, List.mem_filter,
    List.mem_map, exists_exists_and_eq_and, Bool.not_eq_true']

theorem verdictFloat_eq (hW : 0 < v.windowSizeSamples) (p : List ℚ) (total : ℤ) :
    v.verdictFloat p total =
      .ok (decide (∃ g ∈ v.speechSegmentsFloat p, v.LongEnoughFloat total g)) := by
  rw [verdictFloat, doVadFloat_eq_nonStreamingFloat hW]
  simp only [bind, Except.bind, pure, Except.pure, ← nonStreamingFloat_ne_nil_iff,
    List.length_pos_iff]

theorem verdictFloat_eq_true_iff (hW : 0 < v.windowSizeSamples) {p : List ℚ} {total : ℤ} :
    v.verdictFloat p total = .ok true ↔
      ∃ g ∈ v.speechSegmentsFloat p, v.LongEnoughFloat total g := by
  rw [verdictFloat_eq hW]
  simp

/-! ### Monotonicity -/

theorem lowThreshold_withThreshold_le {t' : ℚ} (ht : t' ≤ v.threshold) :
    (v.withThreshold t').lowThreshold ≤ v.lowThreshold :=
  single.round_mono (sub_le_sub_right ht _)

theorem levelFloat_le_levelFloat {t' p p' : ℚ} (ht : t' ≤ v.threshold) (hp : p ≤ p') :
    v.levelFloat p ≤ (v.withThreshold t').levelFloat p' := by
  unfold levelFloat
  split
  next hhigh => exact high_le_iff.mpr (if_pos (ht.trans (hhigh.trans hp)))
  next =>
    split
    next => exact Nat.zero_le _
    next hlow =>
      have hlow' : ¬ p' < (v.withThreshold t').lowThreshold := by
        intro hlt
        exact hlow (hp.trans_lt (hlt.trans_le (lowThreshold_withThreshold_le ht)))
      rw [if_neg hlow']
      split <;> decide

/-- An interval around one that passes the filter passes it. -/
theorem tooShortFloat_of_within {s s' : Interval} (hstart : s'.start ≤ s.start)
    (hstop : s.stop ≤ s'.stop) (h : v.tooShortFloat s = false) : v.tooShortFloat s' = false := by
  rw [tooShortFloat, decide_eq_false_iff_not, not_lt] at h ⊢
  refine h.trans (single.round_mono (sub_le_sub ?_ ?_))
  · exact single.round_mono (sub_le_sub_right hstop _)
  · exact single.round_mono (add_le_add_left hstart _)

theorem LongEnoughFloat.of_within {total : ℤ} {g g' : Segment} (hW : 0 < v.windowSizeSamples)
    (hwithin : g.Within g') (hclosed : ∀ low ∈ g.quiet, v.stopOf low ≤ total)
    (h : v.LongEnoughFloat total g) : v.LongEnoughFloat total g' := by
  obtain ⟨hstart, hstop⟩ := intervalOf_within hW hwithin hclosed
  exact tooShortFloat_of_within (single.round_mono hstart) (single.round_mono hstop) h

/-- **Monotonicity of detection**, with every rounding. -/
theorem verdictFloat_mono {p p' : List ℚ} {t' : ℚ} {total : ℤ} (hW : 0 < v.windowSizeSamples)
    (hpad : v.speechPadSamples ≤ v.minSilenceSamples + v.windowSizeSamples)
    (htotal : p.length * v.windowSizeSamples ≤ total)
    (ht : t' ≤ v.threshold) (hp : List.Forall₂ (· ≤ ·) p p')
    (h : v.verdictFloat p total = .ok true) :
    (v.withThreshold t').verdictFloat p' total = .ok true := by
  have hlevels : List.Forall₂ (· ≤ ·) (p.map v.levelFloat)
      (p'.map (v.withThreshold t').levelFloat) := by
    rw [List.forall₂_map_left_iff, List.forall₂_map_right_iff]
    exact hp.imp fun _ _ hxy => levelFloat_le_levelFloat ht hxy
  have hW' : 0 < (v.withThreshold t').windowSizeSamples := hW
  rw [verdictFloat_eq_true_iff hW']
  rw [verdictFloat_eq_true_iff hW] at h
  obtain ⟨g, hg, hlong⟩ := h
  rw [speechSegmentsFloat_eq hW] at hg
  obtain ⟨g', hg', hwithin⟩ := segments_within (closes_mono hW) hlevels g hg
  refine ⟨g', (speechSegmentsFloat_eq hW' p').symm ▸ hg', ?_⟩
  rw [← List.length_map v.levelFloat] at htotal
  exact hlong.of_within hW hwithin (stopOf_le_of_mem_segments hW hpad htotal hg)

/-! ### From the samples to the verdict -/

theorem getSpeechTimestampsFloat_scored (hW : 0 < v.windowSizeSamples) (p : List ℚ) (total : ℤ) :
    ∃ speeches, (v.scored p total).getSpeechTimestampsFloat = .ok (v.resetStates, speeches) ∧
      speeches.length = (v.nonStreamingFloat p total).length := by
  rw [getSpeechTimestampsFloat, doVadFloat_eq_nonStreamingFloat hW]
  simp only [bind, Except.bind]
  split
  · exact ⟨_, rfl, rfl⟩
  · exact ⟨_, rfl, List.length_map _⟩

end VadIterator

theorem hasVoiceActivityFloat_eq {ε : Type} {f : ModelCall → ℚ × List.Vector ℚ sizeState} {W : ℕ}
    {e : Engine} (h : Sized W e.vad) {data : List Int16} {fuel : ℕ}
    (hfuel : data.length / W < fuel) :
    ∃ e', hasVoiceActivityFloat (ε := ε) (fun c => .ok (f c)) fuel e data =
      some (.ok (e', .ok (decide
        (e.vad.nonStreamingFloat (probsOf f W (inputData data) e.vad) data.length ≠ [])))) := by
  obtain ⟨speeches, hspeeches, hlength⟩ := VadIterator.getSpeechTimestampsFloat_scored
    (window_engineAt_pos (f := f) h (inputData data) (data.length / W))
    (probsOf f W (inputData data) e.vad) data.length
  rw [hasVoiceActivityFloat, speechProbs_inputData h hfuel, Option.map_some]
  simp only [bind, Except.bind]
  rw [engineAt_inputData, hspeeches]
  simp only [hlength, List.length_pos_iff]
  exact ⟨_, rfl⟩

end RadioChatter.Vad
