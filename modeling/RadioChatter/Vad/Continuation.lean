import RadioChatter.Vad.SinglePrecision
import RadioChatter.Vad.WellFormed
import RadioChatter.Vad.WindowLoop

/-!
Captures that are continued.

The detector reads its windows from left to right, so what it has closed it
does not open again: the intervals that end before the capture does are the
first intervals of every longer capture. Only the one that is cut off by the
end of the capture is provisional. Every interval takes a minimum of samples
for itself, which bounds their number.
-/

namespace Hysteresis

variable {closes : ℕ → Bool}

theorem prefix_settle (first low n : ℕ) (done : List Segment) :
    done <+: (State.settle closes first low n done).done := by
  unfold State.settle
  split
  · exact List.prefix_append done _
  · exact List.prefix_rfl

theorem prefix_step (n : ℕ) (s : State) (x : Level) : s.done <+: (step closes n s x).done := by
  obtain ⟨phase, done⟩ := s
  cases x with
  | middle => exact List.prefix_rfl
  | high => cases phase <;> exact List.prefix_rfl
  | low =>
      cases phase with
      | idle => exact List.prefix_rfl
      | active first => exact prefix_settle first n n done
      | pending first low => exact prefix_settle first low n done

/-- What is done stays done, in its order. -/
theorem prefix_runFrom (n : ℕ) (s : State) (w : List Level) :
    s.done <+: (runFrom closes n s w).done := by
  induction w generalizing n s with
  | nil => exact List.prefix_rfl
  | cons x w ih => exact (prefix_step n s x).trans (ih (n + 1) (step closes n s x))

theorem State.prefix_flush (s : State) : s.done <+: s.flush := by
  obtain ⟨phase, done⟩ := s
  cases phase with
  | idle => exact List.prefix_rfl
  | active first => exact List.prefix_append done _
  | pending first low => exact List.prefix_append done _

/-- The segments that the input has closed. -/
theorem State.Sound.filter_flush {n : ℕ} {s : State} (h : s.Sound closes n) :
    s.flush.filter (·.quiet.isSome) = s.done := by
  have hdone : s.done.filter (·.quiet.isSome) = s.done :=
    List.filter_eq_self.mpr h.quiet_isSome
  obtain ⟨phase, done⟩ := s
  cases phase with
  | idle => exact hdone
  | active first => simpa [State.flush] using hdone
  | pending first low => simpa [State.flush] using hdone

/-- The closed segments of an input are the first segments of every
continuation of it. -/
theorem closed_prefix_segments (u v : List Level) :
    (segments closes u).filter (·.quiet.isSome) <+: segments closes (u ++ v) := by
  rw [segments_append, segments, (sound_run closes u).filter_flush]
  exact (prefix_runFrom _ _ v).trans (State.prefix_flush _)

end Hysteresis

namespace RadioChatter.Vad

open Checked Hysteresis

namespace VadIterator

variable {v : VadIterator}

/-- What `DoVad` returns, by its segments. -/
def speeches (v : VadIterator) (p : List ℚ) (total : ℤ) : List Interval :=
  ((segments v.closes (p.map v.level)).map (v.intervalOf total)).filter
    fun speech => !v.tooShort speech

/-- What `GetSpeechTimestamps` makes of an interval. -/
def reported (v : VadIterator) (speech : Interval) : Interval :=
  if v.printAsSamples then speech else ⟨speech.start / v.sampleRate, speech.stop / v.sampleRate⟩

/-- They are the intervals of the definition without an order of reading. -/
theorem speeches_eq_nonStreaming (hW : 0 < v.windowSizeSamples) (p : List ℚ) (total : ℤ) :
    v.speeches p total = v.nonStreaming p total := by
  rw [speeches, segments_eq_groups (closes_mono hW), List.map_map]
  simp only [tooShort_eq]
  rfl

theorem getSpeechTimestamps_eq (hW : 0 < v.windowSizeSamples) (p : List ℚ) (total : ℤ) :
    (v.scored p total).getSpeechTimestamps =
      .ok (v.resetStates, (v.speeches p total).map v.reported) := by
  rw [getSpeechTimestamps, doVad_scored hW]
  simp only [bind, Except.bind]
  have hprint : v.resetStates.printAsSamples = v.printAsSamples := rfl
  rw [hprint]
  unfold reported
  split
  · rw [List.map_id']
    rfl
  · rfl

/-- The interval of a segment that is closed does not depend on where the
capture ends. -/
theorem intervalOf_closed {total total' : ℤ} {g : Segment} (h : g.quiet.isSome) :
    v.intervalOf total g = v.intervalOf total' g := by
  obtain ⟨low, hlow⟩ := Option.isSome_iff_exists.mp h
  simp only [intervalOf, hlow]

/-- Only a segment that the capture cuts off ends where the capture ends. -/
theorem Spaced.stop_lt_total_iff (hv : v.Spaced) {p : List ℚ} {total : ℤ}
    (htotal : p.length * v.windowSizeSamples ≤ total) {g : Segment}
    (hg : g ∈ segments v.closes (p.map v.level)) :
    (v.intervalOf total g).stop < total ↔ g.quiet.isSome := by
  obtain ⟨first, quiet⟩ := g
  cases quiet with
  | none => simp [intervalOf]
  | some low =>
      simp only [Option.isSome_some, iff_true]
      -- The silence that closed it outlasts the padding by at least the padding.
      obtain ⟨low', k, hlow', -, hle, hk, hclose⟩ := closed_of_mem_segments hg rfl
      obtain rfl := Option.some.inj hlow'
      rw [List.length_map] at hk
      obtain ⟨hW, hpad, -, hspaced⟩ := hv
      have hspan : v.minSilenceSamples ≤ (k - low : ℕ) * v.windowSizeSamples := by
        simpa [closes] using hclose
      rw [Nat.cast_sub hle, sub_mul] at hspan
      have hlast : (k + 1 : ℤ) * v.windowSizeSamples ≤ p.length * v.windowSizeSamples :=
        Int.mul_le_mul_of_nonneg_right (by exact_mod_cast hk) hW.le
      rw [add_mul, one_mul] at hlast
      have hstop : (low : ℤ) * v.windowSizeSamples + v.speechPadSamples < total := by omega
      show v.stopOf low < total
      rw [stopOf]
      exact_mod_cast hstop

/-- The intervals that end before the capture does are the first ones of every
continuation. -/
theorem Spaced.prefix_speeches (hv : v.Spaced) {p : List ℚ} {total : ℤ}
    (htotal : p.length * v.windowSizeSamples ≤ total) (q : List ℚ) (total' : ℤ) :
    (v.speeches p total).filter (fun s => s.stop < (total : ℚ)) <+: v.speeches (p ++ q) total' := by
  have hclosed : (v.speeches p total).filter (fun s => s.stop < (total : ℚ)) =
      (((segments v.closes (p.map v.level)).filter (·.quiet.isSome)).map
        (v.intervalOf total')).filter fun speech => !v.tooShort speech := by
    unfold speeches
    rw [List.filter_comm, List.filter_map]
    have hfilter : (segments v.closes (p.map v.level)).filter
          ((fun s : Interval => decide (s.stop < (total : ℚ))) ∘ v.intervalOf total) =
        (segments v.closes (p.map v.level)).filter (·.quiet.isSome) := by
      apply List.filter_congr
      intro g hg
      rw [Function.comp_apply, Bool.eq_iff_iff, decide_eq_true_iff]
      exact hv.stop_lt_total_iff htotal hg
    rw [hfilter]
    congr 1
    apply List.map_congr_left
    intro g hg
    exact intervalOf_closed (List.mem_filter.mp hg).2
  rw [hclosed]
  unfold speeches
  rw [List.map_append]
  exact ((closed_prefix_segments _ _).map _).filter _

/-! ### How many intervals fit in a capture -/

/-- Intervals one after the other take their length each. -/
theorem length_mul_le {m lo hi : ℚ} (hle : lo ≤ hi) {speeches : List Interval}
    (hinside : ∀ s ∈ speeches, lo ≤ s.start ∧ s.stop ≤ hi)
    (hlong : ∀ s ∈ speeches, m ≤ s.stop - s.start)
    (hapart : speeches.Pairwise fun s s' => s.stop < s'.start) :
    speeches.length * m ≤ hi - lo := by
  induction speeches generalizing lo with
  | nil => simpa using hle
  | cons s speeches ih =>
      obtain ⟨hfirst, hrest⟩ := List.pairwise_cons.mp hapart
      obtain ⟨hlo, hhi⟩ := hinside s List.mem_cons_self
      have hs := hlong s List.mem_cons_self
      have htail : speeches.length * m ≤ hi - s.stop := by
        apply ih hhi _ (fun s' hs' => hlong s' (List.mem_cons_of_mem s hs')) hrest
        intro s' hs'
        exact ⟨(hfirst s' hs').le, (hinside s' (List.mem_cons_of_mem s hs')).2⟩
      rw [List.length_cons]
      push_cast
      linarith

theorem Spaced.length_speeches_mul_le (hv : v.Spaced) {p : List ℚ} {total : ℤ}
    (htotal : p.length * v.windowSizeSamples ≤ total) :
    (v.speeches p total).length * (v.minSpeechSamples + 2 * v.speechPadSamples) ≤ total := by
  obtain ⟨hinside, hlong, hapart⟩ := hv.wellFormed htotal
  have hnonneg : (0 : ℚ) ≤ total := by
    have hW : (0 : ℤ) ≤ p.length * v.windowSizeSamples :=
      Int.mul_nonneg (Int.natCast_nonneg _) hv.window.le
    exact_mod_cast hW.trans htotal
  have hbound : ((v.speeches p total).length : ℚ) * _ ≤ total - 0 :=
    length_mul_le hnonneg (fun s hs => ⟨(hinside s hs).1, (hinside s hs).2.2⟩) hlong hapart
  rw [sub_zero] at hbound
  exact_mod_cast hbound

/-- A capture that is shorter than the shortest interval has none. -/
theorem Spaced.speeches_eq_nil (hv : v.Spaced) {p : List ℚ} {total : ℤ}
    (htotal : p.length * v.windowSizeSamples ≤ total)
    (hshort : total < v.minSpeechSamples + 2 * v.speechPadSamples) : v.speeches p total = [] := by
  have hbound := hv.length_speeches_mul_le htotal
  have hnonneg : 0 ≤ total :=
    (Int.mul_nonneg (Int.natCast_nonneg _) hv.window.le).trans htotal
  rw [← List.length_eq_zero_iff]
  by_contra hne
  have hone : (1 : ℤ) ≤ (v.speeches p total).length := by omega
  have hroom := Int.mul_le_mul_of_nonneg_right hone (hnonneg.trans hshort.le)
  rw [one_mul] at hroom
  exact absurd (hroom.trans hbound) (not_le.mpr hshort)

/-- Nor has it one with bounds in single precision. -/
theorem Spaced.nonStreamingFloat_eq_nil (hv : v.Spaced) {p : List ℚ} {total : ℤ}
    (hfits : v.FitsFloat p.length total)
    (hshort : total < v.minSpeechSamples + 2 * v.speechPadSamples) :
    v.nonStreamingFloat p total = [] := by
  have htotal : ((p.map v.snap).length : ℤ) * v.windowSizeSamples ≤ total := by
    rw [List.length_map]
    exact hfits.windows
  calc v.nonStreamingFloat p total
      = v.speeches (p.map v.snap) total := hfits.nonStreamingFloat_eq
    _ = [] := hv.speeches_eq_nil htotal hshort

end VadIterator

/-! ### From the samples to the timestamps -/

section Capture

variable (f : ModelCall → ℚ × List.Vector ℚ sizeState) {W : ℕ}

theorem timestamps_eq {ε : Type} {e : Engine} (h : Sized W e.vad) (data : List Int16) {fuel : ℕ}
    (hfuel : data.length / W < fuel) :
    timestamps (ε := ε) (fun c => .ok (f c)) fuel e (inputData data) =
      some (.ok (.ok (), (e.vad.speeches (probsOf f W (inputData data) e.vad) data.length).map
        e.vad.reported)) := by
  have hW := window_engineAt_pos (f := f) h (inputData data) (data.length / W)
  rw [timestamps, speechProbs_inputData h hfuel, Option.map_some]
  simp only [bind, Except.bind]
  rw [engineAt_inputData, VadIterator.getSpeechTimestamps_eq hW]
  rfl

/-- What the session answers on the windows of a capture it answers on them in
every continuation. -/
theorem probsOf_append (data more : List Int16) (v : VadIterator) :
    ∃ q, probsOf f W (inputData (data ++ more)) v = probsOf f W (inputData data) v ++ q := by
  have hle : data.length / W ≤ (data ++ more).length / W := by
    rw [List.length_append]
    exact Nat.div_le_div_right (Nat.le_add_right _ _)
  obtain ⟨k, hk⟩ := Nat.exists_eq_add_of_le hle
  have htake : (data ++ more).take (data.length / W * W) = data.take (data.length / W * W) :=
    List.take_append_of_le_length (Nat.div_mul_le_self _ _)
  refine ⟨((List.range k).map (data.length / W + ·)).map fun j =>
    (f (callAt f W (inputData (data ++ more)) v j)).1, ?_⟩
  simp only [probsOf, inputData, List.length_map]
  rw [hk, List.range_add, List.map_append]
  congr 1
  apply List.map_congr_left
  intro j hj
  exact congrArg (fun c => (f c).1) (callAt_congr htake v (List.mem_range.mp hj))

end Capture

/-! ### Captures of a scanner -/

section RcsVad

variable {sampleRate threshold : ℚ}

theorem rcsVadCreate_eq (h : 1000 ≤ sampleRate) :
    rcsVadCreate sampleRate threshold = defaultAt ⌊sampleRate⌋ threshold := by
  rw [← truncate_eq_floor (by linarith)]
  rfl

theorem spaced_rcsVadCreate (h : 1000 ≤ sampleRate) :
    (rcsVadCreate sampleRate threshold).Spaced := by
  rw [rcsVadCreate_eq h]
  exact spaced_defaultAt (Int.le_floor.mpr (by exact_mod_cast h)) threshold

theorem sized_rcsVadCreate (h : 1000 ≤ sampleRate) :
    Sized (⌊sampleRate⌋ / 1000 * 32).toNat (rcsVadCreate sampleRate threshold) := by
  have hpos : 0 < sampleRate := by linarith
  apply (fits_rcsVadCreate hpos threshold).sized
  exact Nat.pos_of_ne_zero (mt (window_eq_zero_iff hpos).mp h.not_gt)

/-- The windows of a capture fill no more than its samples. -/
theorem length_probsOf_mul_le (f : ModelCall → ℚ × List.Vector ℚ sizeState) {W : ℕ}
    {v : VadIterator} (h : Sized W v) (data : List Int16) :
    ((probsOf f W (inputData data) v).length : ℤ) * v.windowSizeSamples ≤ data.length := by
  have hle : data.length / W * W ≤ data.length := Nat.div_mul_le_self _ _
  simp only [probsOf, inputData, List.length_map, List.length_range, h.window]
  exact_mod_cast hle

/-- The timestamps of a capture of `n` samples that end before the capture. -/
def finished (sampleRate : ℤ) (n : ℕ) (speeches : List Interval) : List Interval :=
  speeches.filter fun s => s.stop < (n : ℚ) / sampleRate

theorem finished_map_reported (h : 1000 ≤ sampleRate) (n : ℕ) (speeches : List Interval) :
    finished ⌊sampleRate⌋ n (speeches.map (rcsVadCreate sampleRate threshold).reported) =
      (speeches.filter fun s => s.stop < ((n : ℤ) : ℚ)).map
        (rcsVadCreate sampleRate threshold).reported := by
  have hfloor : 1000 ≤ ⌊sampleRate⌋ := Int.le_floor.mpr (by exact_mod_cast h)
  have hpos : (0 : ℚ) < ⌊sampleRate⌋ := by exact_mod_cast (by omega : 0 < ⌊sampleRate⌋)
  have hreported : ∀ s, (rcsVadCreate sampleRate threshold).reported s =
      ⟨s.start / (⌊sampleRate⌋ : ℤ), s.stop / (⌊sampleRate⌋ : ℤ)⟩ := by
    intro s
    rw [rcsVadCreate_eq h]
    rfl
  rw [finished, List.filter_map]
  congr 1
  apply List.filter_congr
  intro s hs
  rw [Function.comp_apply, hreported, Bool.eq_iff_iff, decide_eq_true_iff, decide_eq_true_iff,
    div_lt_div_iff_of_pos_right hpos, Int.cast_natCast]

section History

variable {ε : Type} {e : Engine} (f : ModelCall → ℚ × List.Vector ℚ sizeState)
  (data : List Int16) {fuel : ℕ}

/-- The intervals of a capture on the object that has just been created. -/
def speechesOf (sampleRate threshold : ℚ) (f : ModelCall → ℚ × List.Vector ℚ sizeState)
    (data : List Int16) : List Interval :=
  (rcsVadCreate sampleRate threshold).speeches
    (probsOf f (⌊sampleRate⌋ / 1000 * 32).toNat (inputData data)
      (rcsVadCreate sampleRate threshold)) data.length

theorem timestamps_of_history (h : 1000 ≤ sampleRate)
    (hcalls : Relation.ReflTransGen (Call ε) ⟨rcsVadCreate sampleRate threshold, []⟩ e)
    (hfuel : data.length < fuel) :
    timestamps (ε := ε) (fun c => .ok (f c)) fuel e (inputData data) =
      some (.ok (.ok (), (speechesOf sampleRate threshold f data).map
        (rcsVadCreate sampleRate threshold).reported)) := by
  have hconfigured : Configured (rcsVadCreate sampleRate threshold) e.vad :=
    Configured.history ⟨rfl, rfl, rfl, rfl⟩ hcalls
  calc timestamps (ε := ε) (fun c => .ok (f c)) fuel e (inputData data)
      = timestamps (ε := ε) (fun c => .ok (f c)) fuel ⟨rcsVadCreate sampleRate threshold, []⟩
          (inputData data) := timestamps_congr _ fuel hconfigured.agree _
    _ = _ := timestamps_eq f (sized_rcsVadCreate h) data ((Nat.div_le_self _ _).trans_lt hfuel)

theorem voiceActivity_of_history (h : 1000 ≤ sampleRate)
    (hcalls : Relation.ReflTransGen (Call ε) ⟨rcsVadCreate sampleRate threshold, []⟩ e)
    (hfuel : data.length < fuel) :
    voiceActivity (ε := ε) (fun c => .ok (f c)) fuel e data =
      some (.ok (.ok (decide (speechesOf sampleRate threshold f data ≠ [])))) := by
  have hconfigured : Configured (rcsVadCreate sampleRate threshold) e.vad :=
    Configured.history ⟨rfl, rfl, rfl, rfl⟩ hcalls
  have hcreated : voiceActivity (ε := ε) (fun c => .ok (f c)) fuel e data =
      voiceActivity (ε := ε) (fun c => .ok (f c)) fuel
        ⟨rcsVadCreate sampleRate threshold, []⟩ data :=
    voiceActivity_congr _ fuel hconfigured.agree data
  have hverdict : (∃ g ∈ (rcsVadCreate sampleRate threshold).speechSegments
        (probsOf f (⌊sampleRate⌋ / 1000 * 32).toNat (inputData data)
          (rcsVadCreate sampleRate threshold)),
        (rcsVadCreate sampleRate threshold).LongEnough data.length g) ↔
      speechesOf sampleRate threshold f data ≠ [] := by
    rw [VadIterator.speechSegments_eq (spaced_rcsVadCreate h).window,
      ← VadIterator.length_filter_pos_iff, List.length_pos_iff]
    rfl
  rw [hcreated, voiceActivity, hasVoiceActivity_eq (sized_rcsVadCreate h)
    ((Nat.div_le_self _ _).trans_lt hfuel), Option.map_some]
  simp only [bind, Except.bind, pure, Except.pure, hverdict]

end History

/-- **What has ended stays.** After any history of calls, the timestamps of a
capture that end before it are the first timestamps of every continuation of
it; if there is one, listening longer does not retract the detection. Bounds and
quotients are exact here: as a `float` an end in seconds can fall short of the end
of the capture without lying before it. -/
theorem timestamps_append {ε : Type} (h : 1000 ≤ sampleRate) {e : Engine}
    (hcalls : Relation.ReflTransGen (Call ε) ⟨rcsVadCreate sampleRate threshold, []⟩ e)
    (f : ModelCall → ℚ × List.Vector ℚ sizeState) (data more : List Int16) {fuel : ℕ}
    (hfuel : (data ++ more).length < fuel) :
    ∃ speeches speeches',
      timestamps (ε := ε) (fun c => .ok (f c)) fuel e (inputData data) =
        some (.ok (.ok (), speeches)) ∧
      timestamps (ε := ε) (fun c => .ok (f c)) fuel e (inputData (data ++ more)) =
        some (.ok (.ok (), speeches')) ∧
      finished ⌊sampleRate⌋ data.length speeches <+: speeches' ∧
      (finished ⌊sampleRate⌋ data.length speeches ≠ [] →
        voiceActivity (ε := ε) (fun c => .ok (f c)) fuel e (data ++ more) =
          some (.ok (.ok true))) := by
  have hshort : data.length < fuel := by
    rw [List.length_append] at hfuel
    omega
  obtain ⟨q, hq⟩ := probsOf_append f data more (rcsVadCreate sampleRate threshold)
  have hprefix : (speechesOf sampleRate threshold f data).filter
        (fun s => s.stop < ((data.length : ℤ) : ℚ)) <+:
      speechesOf sampleRate threshold f (data ++ more) := by
    unfold speechesOf
    rw [hq]
    exact (spaced_rcsVadCreate h).prefix_speeches
      (length_probsOf_mul_le f (sized_rcsVadCreate h) data) q _
  refine ⟨_, _, timestamps_of_history f data h hcalls hshort,
    timestamps_of_history f (data ++ more) h hcalls hfuel, ?_, ?_⟩
  · rw [finished_map_reported h]
    exact hprefix.map _
  · intro hfinished
    rw [finished_map_reported h, Ne, List.map_eq_nil_iff] at hfinished
    have hdetected : speechesOf sampleRate threshold f (data ++ more) ≠ [] := by
      intro hnil
      rw [hnil] at hprefix
      exact hfinished (List.prefix_nil.mp hprefix)
    rw [voiceActivity_of_history f (data ++ more) h hcalls hfuel, decide_eq_true hdetected]

/-- A session that hears speech in the first eleven windows. -/
def elevenWindows (c : ModelCall) : ℚ × List.Vector ℚ sizeState :=
  (if c.state.headD 0 < 11 then 0.9 else 0.1, List.Vector.replicate _ (c.state.headD 0 + 1))

/-- Eleven windows of speech and five of silence, with three more samples. -/
theorem timestamps_append_elevenWindows :
    voiceActivity (ε := Unit) (fun c => .ok (elevenWindows c)) 516 ⟨rcsVadCreate 1000 0.5, []⟩
      (List.replicate 512 64 ++ [1, 2, 3]) = some (.ok (.ok true)) := by
  have hrate : (1000 : ℚ) ≤ 1000 := le_refl _
  have hcalls : Relation.ReflTransGen (Call Unit) ⟨rcsVadCreate 1000 0.5, []⟩
    ⟨rcsVadCreate 1000 0.5, []⟩ := .refl
  have hshort : (List.replicate 512 (64 : Int16)).length < 516 := by
    rw [List.length_replicate]
    decide
  have hfuel : (List.replicate 512 (64 : Int16) ++ [1, 2, 3]).length < 516 := by
    rw [List.length_append, List.length_replicate]
    decide
  obtain ⟨speeches, -, hspeeches, -, -, hfinal⟩ :=
    timestamps_append hrate hcalls elevenWindows (List.replicate 512 64) [1, 2, 3] hfuel
  apply hfinal
  rw [timestamps_of_history elevenWindows (List.replicate 512 64) hrate hcalls hshort] at hspeeches
  obtain ⟨-, rfl⟩ := Prod.mk.inj (Except.ok.inj (Option.some.inj hspeeches))
  decide +kernel

theorem minimum_rcsVadCreate (threshold : ℚ) (h : 1000 ≤ sampleRate) :
    (rcsVadCreate sampleRate threshold).minSpeechSamples +
        2 * (rcsVadCreate sampleRate threshold).speechPadSamples =
      ⌊sampleRate⌋ * 250 / 1000 + 2 * (⌊sampleRate⌋ * 30 / 1000) := by
  have hfloor : 1000 ≤ ⌊sampleRate⌋ := Int.le_floor.mpr (by exact_mod_cast h)
  have hproduct : ∀ ms : ℤ, 0 ≤ ms → (⌊sampleRate⌋ * ms).tdiv 1000 = ⌊sampleRate⌋ * ms / 1000 :=
    fun ms hms => Int.tdiv_eq_ediv_of_nonneg (Int.mul_nonneg (by omega) hms)
  rw [rcsVadCreate_eq h, ← hproduct 250 (by decide), ← hproduct 30 (by decide)]
  rfl

theorem length_speechesOf_mul_le (h : 1000 ≤ sampleRate)
    (f : ModelCall → ℚ × List.Vector ℚ sizeState) (data : List Int16) :
    (speechesOf sampleRate threshold f data).length *
      (⌊sampleRate⌋ * 250 / 1000 + 2 * (⌊sampleRate⌋ * 30 / 1000)) ≤ data.length := by
  rw [← minimum_rcsVadCreate threshold h]
  exact (spaced_rcsVadCreate h).length_speeches_mul_le
    (length_probsOf_mul_le f (sized_rcsVadCreate h) data)

theorem speechesOf_eq_nil (h : 1000 ≤ sampleRate)
    (f : ModelCall → ℚ × List.Vector ℚ sizeState) {data : List Int16}
    (hshort : data.length < ⌊sampleRate⌋ * 250 / 1000 + 2 * (⌊sampleRate⌋ * 30 / 1000)) :
    speechesOf sampleRate threshold f data = [] := by
  rw [← minimum_rcsVadCreate threshold h] at hshort
  exact (spaced_rcsVadCreate h).speeches_eq_nil
    (length_probsOf_mul_le f (sized_rcsVadCreate h) data) hshort

/-- **Room for an utterance.** Every timestamp stands for a minimum of samples
of its own, so a capture has few of them, and a short one is never taken for
speech, whatever the session answers. The rate has no upper bound here; above
8589934 Hz the products of the constructor would leave the `int`. -/
theorem length_timestamps_mul_le {ε : Type} (h : 1000 ≤ sampleRate) {e : Engine}
    (hcalls : Relation.ReflTransGen (Call ε) ⟨rcsVadCreate sampleRate threshold, []⟩ e)
    (f : ModelCall → ℚ × List.Vector ℚ sizeState) (data : List Int16) {fuel : ℕ}
    (hfuel : data.length < fuel) :
    ∃ speeches,
      timestamps (ε := ε) (fun c => .ok (f c)) fuel e (inputData data) =
        some (.ok (.ok (), speeches)) ∧
      speeches.length * (⌊sampleRate⌋ * 250 / 1000 + 2 * (⌊sampleRate⌋ * 30 / 1000)) ≤
        data.length ∧
      (data.length < ⌊sampleRate⌋ * 250 / 1000 + 2 * (⌊sampleRate⌋ * 30 / 1000) →
        voiceActivity (ε := ε) (fun c => .ok (f c)) fuel e data = some (.ok (.ok false))) := by
  refine ⟨_, timestamps_of_history f data h hcalls hfuel, ?_, ?_⟩
  · rw [List.length_map]
    exact length_speechesOf_mul_le h f data
  · intro hshort
    rw [voiceActivity_of_history f data h hcalls hfuel, speechesOf_eq_nil h f hshort]
    rfl

/-- A tenth of a second at 16 kHz, of which every window sounds like speech. -/
theorem length_timestamps_mul_le_short :
    voiceActivity (ε := Unit) (fun _ => .ok (1, List.Vector.replicate _ 0)) 1601
      ⟨rcsVadCreate 16000 0.5, []⟩ (List.replicate 1600 64) = some (.ok (.ok false)) := by
  have hrate : (1000 : ℚ) ≤ 16000 := by norm_num
  have hcalls : Relation.ReflTransGen (Call Unit) ⟨rcsVadCreate 16000 0.5, []⟩
    ⟨rcsVadCreate 16000 0.5, []⟩ := .refl
  have hfuel : (List.replicate 1600 (64 : Int16)).length < 1601 := by
    rw [List.length_replicate]
    decide
  obtain ⟨-, -, -, hshort⟩ := length_timestamps_mul_le hrate hcalls
    (fun _ => (1, List.Vector.replicate _ 0)) (List.replicate 1600 64) hfuel
  apply hshort
  rw [List.length_replicate]
  norm_num

end RcsVad

end RadioChatter.Vad
