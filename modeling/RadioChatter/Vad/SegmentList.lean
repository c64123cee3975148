import RadioChatter.Vad.Detector

/-!
The list that `DoVad` builds.

An `Interval` is pushed without an end, and its end is assigned later, at one
of two places. What the filter reads is initialised because at most the last
segment is open at any time, and `triggered` says whether it is. Every state
of the loop is the picture of a state of the segmenter, so the invariant is
read off the phases and no order of high, middle and low windows is followed
again.
-/

namespace RadioChatter.Vad.VadIterator

open Checked Hysteresis

/-- What holds of the object and of its list after every window. -/
structure Recorded (s : VadIterator × List OpenInterval) : Prop where
  ended : ∀ segment ∈ s.2.dropLast, segment.stop.isSome
  last : ∀ segment ∈ s.2.getLast?, segment.stop = none ↔ s.1.triggered = true
  nonempty : s.1.triggered = true → s.2 ≠ []
  pending : s.1.tempEnd ≠ 0 →
    s.1.triggered = true ∧ 0 < s.1.tempEnd ∧ s.1.tempEnd ≤ s.1.currentSample

/-- A silence began at a window that the segmenter has already seen. -/
theorem tempEnd_le_currentSample {v : VadIterator} (hW : 0 < v.windowSizeSamples) {low n : ℕ}
    (hlow : low < n) :
    0 < (low + 1) * v.windowSizeSamples ∧
      (low + 1) * v.windowSizeSamples ≤ n * v.windowSizeSamples := by
  constructor
  · positivity
  · exact Int.mul_le_mul_of_nonneg_right (by exact_mod_cast hlow) hW.le

/-- No segment is open. -/
theorem Recorded.of_idle {v : VadIterator} {speeches : List OpenInterval}
    (hspeeches : ∀ segment ∈ speeches, segment.stop.isSome) (htriggered : v.triggered = false)
    (htempEnd : v.tempEnd = 0) : Recorded (v, speeches) where
  ended := fun segment hsegment => hspeeches segment (List.dropLast_subset _ hsegment)
  last := by
    intro segment hsegment
    have hsome := hspeeches segment (List.mem_of_getLast? hsegment)
    rw [Option.isSome_iff_ne_none] at hsome
    simp [hsome, htriggered]
  nonempty := by simp [htriggered]
  pending := fun hne => absurd htempEnd hne

/-- The segment that was pushed last is open. -/
theorem Recorded.of_open {v : VadIterator} {speeches : List OpenInterval} {start : ℚ}
    (hspeeches : ∀ segment ∈ speeches, segment.stop.isSome) (htriggered : v.triggered = true)
    (htempEnd : v.tempEnd ≠ 0 → 0 < v.tempEnd ∧ v.tempEnd ≤ v.currentSample) :
    Recorded (v, speeches ++ [⟨start, none⟩]) where
  ended := by simpa using hspeeches
  last := by simp [htriggered]
  nonempty := by simp
  pending := fun hne => ⟨htriggered, htempEnd hne⟩

theorem recorded_scan {v : VadIterator} (hW : 0 < v.windowSizeSamples) {n : ℕ} {s : State}
    (hs : s.phase.Before n) : Recorded (v.scan n s) := by
  obtain ⟨phase, done⟩ := s
  have hdone : ∀ segment ∈ done.map (v.closedInterval v.totalSampleSize),
      segment.stop.isSome := by
    intro segment hsegment
    obtain ⟨g, -, rfl⟩ := List.mem_map.mp hsegment
    rfl
  cases phase with
  | idle =>
      apply Recorded.of_idle
      · simpa [openTail] using hdone
      · simp
      · rfl
  | active first =>
      apply Recorded.of_open hdone
      · simp
      · intro hne
        exact absurd rfl hne
  | pending first low =>
      apply Recorded.of_open hdone
      · simp
      · intro _
        exact tempEnd_le_currentSample hW hs.2

theorem recorded_foldlM_doVadStep {v : VadIterator} (hW : 0 < v.windowSizeSamples) (p : List ℚ) :
    ∃ s, p.foldlM doVadStep (v.scan 0 .init) = .ok s ∧ Recorded s := by
  have hsound := sound_run v.closes (p.map v.level)
  have hloop := foldlM_doVadStep_scan hW p State.sound_init
  rw [List.length_map] at hsound
  rw [Nat.zero_add] at hloop
  exact ⟨_, hloop, recorded_scan hW hsound.phase⟩

/-! ### What the filter reads -/

/-- The end that is still missing is assigned before the filter runs, and
`speeches.back()` is there to assign it to. -/
theorem Recorded.flush {s : VadIterator × List OpenInterval} (h : Recorded s) :
    ∃ s', doVadFlush s = .ok s' ∧ ∀ segment ∈ s'.2, segment.stop.isSome := by
  obtain ⟨v, speeches⟩ := s
  cases htriggered : v.triggered with
  | false =>
      refine ⟨(v, speeches), by simp [doVadFlush, htriggered], ?_⟩
      intro segment hsegment
      -- The last segment has its end because nothing is triggered.
      have hne : speeches ≠ [] := List.ne_nil_of_mem hsegment
      rw [← List.dropLast_append_getLast hne, List.mem_append, List.mem_singleton] at hsegment
      rcases hsegment with hsegment | rfl
      · exact h.ended segment hsegment
      · rw [Option.isSome_iff_ne_none]
        intro hnone
        have hopen := (h.last _ (List.getLast?_eq_some_getLast hne)).mp hnone
        rw [htriggered] at hopen
        cases hopen
  | true =>
      have hne : speeches ≠ [] := h.nonempty htriggered
      have hback := setBackEnd_snoc speeches.dropLast (speeches.getLast hne) v.totalSampleSize
      rw [List.dropLast_append_getLast hne] at hback
      have hflush : doVadFlush (v, speeches) = .ok ({ v with triggered := false },
          speeches.dropLast ++ [⟨(speeches.getLast hne).start, some v.totalSampleSize⟩]) := by
        simp [doVadFlush, htriggered, hback, bind, Except.bind, pure, Except.pure]
      refine ⟨_, hflush, ?_⟩
      intro segment hsegment
      rcases List.mem_append.mp hsegment with hsegment | hsegment
      · exact h.ended segment hsegment
      · obtain rfl := List.mem_singleton.mp hsegment
        rfl

theorem mapM_read {speeches : List OpenInterval}
    (h : ∀ segment ∈ speeches, segment.stop.isSome) :
    ∃ intervals, speeches.mapM OpenInterval.read = .ok intervals := by
  induction speeches with
  | nil => exact ⟨[], rfl⟩
  | cons segment speeches ih =>
      obtain ⟨hsegment, hspeeches⟩ := List.forall_mem_cons.mp h
      obtain ⟨intervals, hintervals⟩ := ih hspeeches
      obtain ⟨stop, hstop⟩ := Option.isSome_iff_exists.mp hsegment
      refine ⟨⟨segment.start, stop⟩ :: intervals, ?_⟩
      rw [List.mapM_cons, hintervals, OpenInterval.read, hstop]
      rfl

/-- **The list of `DoVad`.** From the state that `reset_states` leaves, the
invariant holds after every window, so that `back` is never called on an empty
list and the filter reads no end that was not assigned. -/
theorem doVad_recorded {v : VadIterator} (hW : 0 < v.windowSizeSamples) (p : List ℚ) (total : ℤ) :
    (∀ k, ∃ s,
      (p.take k).foldlM doVadStep (v.resetStates.scored p total, []) = .ok s ∧ Recorded s) ∧
    ∃ v' speeches, (v.resetStates.scored p total).doVad = .ok (v', speeches) := by
  have hwindows := fun w : List ℚ =>
    recorded_foldlM_doVadStep (v := v.resetStates.scored p total) hW w
  rw [← scored_eq_scan] at hwindows
  refine ⟨fun k => hwindows (p.take k), ?_⟩
  obtain ⟨s, hloop, hrecorded⟩ := hwindows p
  obtain ⟨s', hflush, hended⟩ := hrecorded.flush
  obtain ⟨intervals, hread⟩ := mapM_read hended
  have hprobs : (v.resetStates.scored p total).outputsProb = p := rfl
  refine ⟨s'.1.resetStates, intervals.filter fun speech => !s'.1.tooShort speech, ?_⟩
  rw [doVad, hprobs, hloop]
  simp only [bind, Except.bind, hflush, hread]
  rfl

/-- Two segments of which the second is open at the end, and a silence that a
high window forgets. -/
theorem doVad_recorded_sixteenKilohertz :
    ∃ v' speeches, ((rcsVadCreate 16000 0.5).resetStates.scored
        ([0.9, 0.1, 0.9, 0.4] ++ List.replicate 5 0.1 ++ [0.9]) 5120).doVad =
      .ok (v', speeches) :=
  (doVad_recorded (by decide +kernel) _ _).2

end RadioChatter.Vad.VadIterator
