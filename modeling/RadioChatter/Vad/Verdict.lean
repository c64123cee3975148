import RadioChatter.Vad.Detector
import RadioChatter.Lib.Widening

/-!
The verdict: whether `DoVad` returns any interval at all.

It is positive exactly when one of the segments is long enough, and raising
probabilities or lowering the threshold cannot take it back. Numbers are exact
here; `Vad.SingleVerdict` has the same with every rounding.
-/

namespace RadioChatter.Vad.VadIterator

open Checked Hysteresis

/-- Whether `DoVad` returns a non-empty list on the probabilities `p` of a
capture of `total` samples. -/
def verdict (v : VadIterator) (p : List ℚ) (total : ℤ) : Except Fault Bool := do
  let (_, speeches) ← (v.scored p total).doVad
  pure (0 < speeches.length)

/-- The segment survives the length filter. -/
def LongEnough (v : VadIterator) (total : ℤ) (g : Segment) : Prop :=
  v.minSpeechSamples ≤ ((v.intervalOf total g).stop - v.speechPadSamples) -
    ((v.intervalOf total g).start + v.speechPadSamples)

instance (v : VadIterator) (total : ℤ) : DecidablePred (v.LongEnough total) :=
  fun _ => inferInstanceAs (Decidable (_ ≤ _))

/-- The segments of the groups of high windows. -/
def speechSegments (v : VadIterator) (p : List ℚ) : List Segment :=
  (groups v.closes (p.map v.level)).map (segmentOf v.closes (p.map v.level))

theorem speechSegments_eq {v : VadIterator} (hW : 0 < v.windowSizeSamples) (p : List ℚ) :
    v.speechSegments p = segments v.closes (p.map v.level) :=
  (segments_eq_groups (closes_mono hW) _).symm

theorem length_filter_pos_iff {v : VadIterator} {total : ℤ} {gs : List Segment} :
    0 < ((gs.map (v.intervalOf total)).filter fun s => !v.tooShort s).length ↔
      ∃ g ∈ gs, v.LongEnough total g := by
  rw [List.length_pos_iff_exists_mem]
  simp only [List.mem_filter, List.mem_map, tooShort_eq, decide_eq_true_eq]
  constructor
  · rintro ⟨_, ⟨g, hg, rfl⟩, hlong⟩
    exact ⟨g, hg, hlong⟩
  · rintro ⟨g, hg, hlong⟩
    exact ⟨_, ⟨g, hg, rfl⟩, hlong⟩

theorem verdict_eq {v : VadIterator} (hW : 0 < v.windowSizeSamples) (p : List ℚ) (total : ℤ) :
    v.verdict p total = .ok (decide (∃ g ∈ v.speechSegments p, v.LongEnough total g)) := by
  rw [verdict, doVad_scored hW, speechSegments_eq hW]
  simp only [bind, Except.bind, pure, Except.pure, length_filter_pos_iff]

/-- `GetSpeechTimestamps` after `SpeechProbs`: there is a timestamp for every
segment that is long enough. -/
theorem getSpeechTimestamps_scored {v : VadIterator} (hW : 0 < v.windowSizeSamples)
    (p : List ℚ) (total : ℤ) :
    ∃ speeches, (v.scored p total).getSpeechTimestamps = .ok (v.resetStates, speeches) ∧
      (0 < speeches.length ↔ ∃ g ∈ v.speechSegments p, v.LongEnough total g) := by
  rw [getSpeechTimestamps, doVad_scored hW, speechSegments_eq hW]
  simp only [bind, Except.bind]
  split
  · exact ⟨_, rfl, length_filter_pos_iff⟩
  · refine ⟨_, rfl, ?_⟩
    rw [List.length_map]
    exact length_filter_pos_iff

theorem verdict_eq_true_iff {v : VadIterator} (hW : 0 < v.windowSizeSamples) {p : List ℚ}
    {total : ℤ} :
    v.verdict p total = .ok true ↔ ∃ g ∈ v.speechSegments p, v.LongEnough total g := by
  rw [verdict_eq hW]
  simp

/-! ### Monotonicity -/

def withThreshold (v : VadIterator) (t : ℚ) : VadIterator := { v with threshold := t }

theorem level_le_level {v : VadIterator} {t' p p' : ℚ} (ht : t' ≤ v.threshold) (hp : p ≤ p') :
    v.level p ≤ (v.withThreshold t').level p' := by
  unfold level withThreshold
  split
  next hhigh => exact high_le_iff.mpr (if_pos (ht.trans (hhigh.trans hp)))
  next =>
    split
    next => exact Nat.zero_le _
    next hlow =>
      have hlow' : ¬ p' < t' - 0.15 := by linarith
      rw [if_neg hlow']
      split <;> decide

/-- A closed segment ends inside the capture: the silence that closes it
outlasts the padding of its end. -/
theorem stopOf_le_total {v : VadIterator} {n : ℕ} {total : ℤ} {g : Segment}
    (hW : 0 < v.windowSizeSamples)
    (hpad : v.speechPadSamples ≤ v.minSilenceSamples + v.windowSizeSamples)
    (htotal : n * v.windowSizeSamples ≤ total) (hg : g.Closed v.closes n) :
    ∃ low, g.quiet = some low ∧ v.stopOf low ≤ total := by
  obtain ⟨low, k, hquiet, -, hle, hk, hclose⟩ := hg
  refine ⟨low, hquiet, ?_⟩
  have hspan : v.minSilenceSamples ≤ (k - low : ℕ) * v.windowSizeSamples := by
    simpa [closes] using hclose
  rw [Nat.cast_sub hle] at hspan
  have hlast : (k + 1 : ℤ) * v.windowSizeSamples ≤ n * v.windowSizeSamples :=
    Int.mul_le_mul_of_nonneg_right (by exact_mod_cast hk) hW.le
  have hstop : (low : ℤ) * v.windowSizeSamples + v.speechPadSamples ≤ total := by
    calc (low : ℤ) * v.windowSizeSamples + v.speechPadSamples
        ≤ low * v.windowSizeSamples + (v.minSilenceSamples + v.windowSizeSamples) := by omega
      _ ≤ low * v.windowSizeSamples +
            ((k - low) * v.windowSizeSamples + v.windowSizeSamples) := by omega
      _ = (k + 1) * v.windowSizeSamples := by ring
      _ ≤ total := hlast.trans htotal
  rw [stopOf]
  exact_mod_cast hstop

theorem startOf_mono {v : VadIterator} (hW : 0 < v.windowSizeSamples) {i' i : ℕ} (h : i' ≤ i) :
    v.startOf i' ≤ v.startOf i := by
  have hmul : (i' : ℤ) * v.windowSizeSamples ≤ i * v.windowSizeSamples :=
    Int.mul_le_mul_of_nonneg_right (by exact_mod_cast h) hW.le
  have hmax : max 0 ((i' : ℤ) * v.windowSizeSamples - v.speechPadSamples) ≤
      max 0 ((i : ℤ) * v.windowSizeSamples - v.speechPadSamples) := by omega
  rw [startOf, startOf]
  exact_mod_cast hmax

theorem stopOf_mono {v : VadIterator} (hW : 0 < v.windowSizeSamples) {j j' : ℕ} (h : j ≤ j') :
    v.stopOf j ≤ v.stopOf j' := by
  have hmul : (j : ℤ) * v.windowSizeSamples ≤ j' * v.windowSizeSamples :=
    Int.mul_le_mul_of_nonneg_right (by exact_mod_cast h) hW.le
  have hadd : (j : ℤ) * v.windowSizeSamples + v.speechPadSamples ≤
      j' * v.windowSizeSamples + v.speechPadSamples := by omega
  rw [stopOf, stopOf]
  exact_mod_cast hadd

/-- The interval of a segment that lies within another lies within its interval. -/
theorem intervalOf_within {v : VadIterator} {total : ℤ} {g g' : Segment}
    (hW : 0 < v.windowSizeSamples) (hwithin : g.Within g')
    (hclosed : ∀ low ∈ g.quiet, v.stopOf low ≤ total) :
    (v.intervalOf total g').start ≤ (v.intervalOf total g).start ∧
      (v.intervalOf total g).stop ≤ (v.intervalOf total g').stop := by
  obtain ⟨hfirst, hquiet⟩ := hwithin
  refine ⟨startOf_mono hW hfirst, ?_⟩
  obtain ⟨first, quiet⟩ := g
  obtain ⟨first', quiet'⟩ := g'
  cases quiet' with
  | none =>
      cases quiet with
      | none => exact le_refl _
      | some low => exact hclosed low rfl
  | some low' =>
      obtain ⟨low, hlow, hle⟩ := hquiet low' rfl
      obtain rfl : quiet = some low := hlow
      exact stopOf_mono hW hle

/-- It is not the longer one. -/
theorem LongEnough.of_within {v : VadIterator} {total : ℤ} {g g' : Segment}
    (hW : 0 < v.windowSizeSamples) (hwithin : g.Within g')
    (hclosed : ∀ low ∈ g.quiet, v.stopOf low ≤ total) (h : v.LongEnough total g) :
    v.LongEnough total g' := by
  obtain ⟨hstart, hstop⟩ := intervalOf_within hW hwithin hclosed
  unfold LongEnough at h ⊢
  linarith

/-- A segment of the input ends inside the capture, if it was closed. -/
theorem stopOf_le_of_mem_segments {v : VadIterator} {w : List Level} {total : ℤ} {g : Segment}
    (hW : 0 < v.windowSizeSamples)
    (hpad : v.speechPadSamples ≤ v.minSilenceSamples + v.windowSizeSamples)
    (htotal : w.length * v.windowSizeSamples ≤ total) (hg : g ∈ segments v.closes w) :
    ∀ low ∈ g.quiet, v.stopOf low ≤ total := by
  intro low hlow
  have hclosed := closed_of_mem_segments hg (Option.isSome_of_mem hlow)
  obtain ⟨low', hlow', hstop⟩ := stopOf_le_total hW hpad htotal hclosed
  obtain rfl : low = low' := by simpa [hlow'] using hlow.symm
  exact hstop

/-- **Monotonicity of detection.** -/
theorem verdict_mono {v : VadIterator} {p p' : List ℚ} {t' : ℚ} {total : ℤ}
    (hW : 0 < v.windowSizeSamples)
    (hpad : v.speechPadSamples ≤ v.minSilenceSamples + v.windowSizeSamples)
    (htotal : p.length * v.windowSizeSamples ≤ total)
    (ht : t' ≤ v.threshold) (hp : List.Forall₂ (· ≤ ·) p p')
    (h : v.verdict p total = .ok true) :
    (v.withThreshold t').verdict p' total = .ok true := by
  have hlevels : List.Forall₂ (· ≤ ·) (p.map v.level)
      (p'.map (v.withThreshold t').level) := by
    rw [List.forall₂_map_left_iff, List.forall₂_map_right_iff]
    exact hp.imp fun _ _ hxy => level_le_level ht hxy
  have hW' : 0 < (v.withThreshold t').windowSizeSamples := hW
  rw [verdict_eq_true_iff hW']
  rw [verdict_eq_true_iff hW] at h
  obtain ⟨g, hg, hlong⟩ := h
  rw [speechSegments_eq hW] at hg
  obtain ⟨g', hg', hwithin⟩ := segments_within (closes_mono hW) hlevels g hg
  refine ⟨g', (speechSegments_eq hW' p').symm ▸ hg', ?_⟩
  rw [← List.length_map v.level] at htotal
  exact hlong.of_within hW hwithin (stopOf_le_of_mem_segments hW hpad htotal hg)

/-- Raising one middle window and lowering the threshold, at 16 kHz. -/
theorem verdict_mono_sixteenKilohertz :
    ((rcsVadCreate 16000 0.5).withThreshold 0.4).verdict
      (0.4 :: List.replicate 10 0.9 ++ List.replicate 5 0.1) 8192 = .ok true :=
  verdict_mono (v := rcsVadCreate 16000 0.5)
    (p := 0.3 :: List.replicate 10 0.9 ++ List.replicate 5 0.1)
    (by decide +kernel) (by decide +kernel) (by decide +kernel) (by decide +kernel)
    (by decide +kernel) (by decide +kernel)

end RadioChatter.Vad.VadIterator
