import RadioChatter.Vad.Isolation

/-!
Whether the window loop ends.

The step of the loop is the window size, which `init_engine` computes with the
division in front of the multiplication: below 1000 samples a second it is
zero. The loop then asks the session about an empty chunk and stays where it
is, with the sizes of the object as they were, so that only an exception of
the session ends it. From 1000 on each call is a window of at least 32 samples
that no other call has.
-/

namespace RadioChatter.Vad

open Checked

/-- The loop returns on this capture, by its tests or by an exception of the
session, after at most one call for each sample. -/
def Ends {ε : Type} (session : Session ε) (e : Engine) (data : List Int16) : Prop :=
  ∃ fuel e' r, speechProbs session fuel e (inputData data) = some (.ok (e', r)) ∧
    e'.calls.length ≤ e.calls.length + data.length

/-- The loop returns on this capture whatever session is asked, and whatever
captures the object has gone through since `rcs_vad_create`. -/
def EndsAlways (sampleRate threshold : ℚ) (data : List Int16) : Prop :=
  ∀ (ε : Type) (session : Session ε) (e : Engine),
    Relation.ReflTransGen (Call ε) ⟨rcsVadCreate sampleRate threshold, []⟩ e →
      Ends session e data

/-! ### Windows with samples -/

theorem ends_of_sized {ε : Type} (session : Session ε) {W : ℕ} {e : Engine} (h : Sized W e.vad)
    (data : List Int16) : Ends session e data := by
  have hlength : (inputData data).length = data.length := List.length_map ..
  obtain ⟨e', r, hrun, -, hcalls⟩ :=
    speechProbs_ok session h (Nat.lt_succ_self (inputData data).length)
  refine ⟨_, e', r, hrun, ?_⟩
  rw [hlength] at hcalls
  -- A window has at least one sample.
  by_contra hlt
  have hmore : e.calls.length + data.length + 1 ≤ e'.calls.length := by omega
  have hproduct := Nat.mul_le_mul_right W hmore
  have hsamples : data.length + 1 ≤ (data.length + 1) * W := Nat.le_mul_of_pos_right _ h.pos
  rw [Nat.add_assoc, Nat.add_mul] at hproduct
  omega

/-- An empty capture is left at the first test. -/
theorem ends_nil {ε : Type} (session : Session ε) (e : Engine) : Ends session e [] := by
  refine ⟨1, { e with vad := { e.vad.resetStates with totalSampleSize := 0 } }, .ok (), ?_, ?_⟩
  · rw [speechProbs]
    apply BoundedLoop.run_of_inr
    simp [speechProbsBody, inputData, sizeT]
  · exact Nat.le_add_right _ _

/-! ### Windows without samples -/

/-- What holds at every test of the loop: it has not moved. -/
structure Stuck (wav : List ℚ) (s : Engine × ℕ) : Prop where
  fits : Fits 0 s.1.vad
  total : s.1.vad.totalSampleSize = wav.length
  position : s.2 = 0

theorem Stuck.step {ε : Type} (f : ModelCall → ℚ × List.Vector ℚ sizeState) {wav : List ℚ}
    (hwav : wav ≠ []) {s : Engine × ℕ} (h : Stuck wav s) :
    ∃ s', speechProbsBody (ε := ε) (fun c => .ok (f c)) wav s = .inl s' ∧ Stuck wav s' := by
  obtain ⟨e, j⟩ := s
  obtain ⟨hfits, htotal, hj⟩ := h
  simp only at hfits htotal hj
  have hpos : 0 < wav.length := List.length_pos_of_ne_nil hwav
  have hwindow : sizeT e.vad.windowSizeSamples = 0 := by rw [hfits.window, sizeT_natCast]
  have hlength : sizeT e.vad.totalSampleSize = wav.length := by rw [htotal, sizeT_natCast]
  have hchunk : slice wav 0 0 = .ok [] := slice_eq_ok le_rfl (Nat.zero_le _)
  -- The session is asked about the empty chunk, and the window is as short afterwards.
  have hpredict : predict (ε := ε) (fun c => .ok (f c)) e [] =
      .ok (e.answered [] (.ok (f (e.vad.callOn [])))) := predict_eq _ hfits rfl
  have hnext := hfits.answered [] (Except.ok (ε := ε) (f (e.vad.callOn [])))
  let e' := (e.answered [] (Except.ok (ε := ε) (f (e.vad.callOn [])))).1
  refine ⟨({ e' with vad := { e'.vad with
      outputsProb := e'.vad.outputsProb ++ [(f (e.vad.callOn [])).1] } }, 0), ?_,
    hnext.congr rfl rfl rfl, htotal, rfl⟩
  simp only [speechProbsBody, hwindow, hlength, hj, hpos, if_true, Nat.add_zero, Nat.not_lt_zero,
    if_false, hchunk, bind, Except.bind, hpredict]
  rfl

/-- A session that answers every time keeps the loop going for ever. -/
theorem not_ends_of_fits {ε : Type} (f : ModelCall → ℚ × List.Vector ℚ sizeState) {e : Engine}
    (h : Fits 0 e.vad) {data : List Int16} (hdata : data ≠ []) :
    ¬ Ends (ε := ε) (fun c => .ok (f c)) e data := by
  rintro ⟨fuel, e', r, hrun, -⟩
  have hwav : inputData data ≠ [] := by simpa [inputData] using hdata
  have hstart : Stuck (inputData data)
      ({ e with vad := { e.vad.resetStates with totalSampleSize := (inputData data).length } },
        0) :=
    ⟨h.resetStates.congr rfl rfl rfl, rfl, rfl⟩
  rw [speechProbs, BoundedLoop.run_eq_none (Stuck (inputData data))
    (fun _ hs => hs.step f hwav) fuel hstart] at hrun
  cases hrun

/-! ### The step of the loop -/

theorem truncate_eq_floor {x : ℚ} (h : 0 ≤ x) : truncate x = ⌊x⌋ := by
  rw [truncate, Int.tdiv_eq_ediv_of_nonneg (Rat.num_nonneg.mpr h), Rat.floor_def']

theorem windowSizeSamples_rcsVadCreate {sampleRate : ℚ} (h : 0 < sampleRate) (threshold : ℚ) :
    (rcsVadCreate sampleRate threshold).windowSizeSamples = ⌊sampleRate⌋ / 1000 * 32 := by
  have hfloor : 0 ≤ ⌊sampleRate⌋ := Int.floor_nonneg.mpr h.le
  rw [← Int.tdiv_eq_ediv_of_nonneg hfloor, ← truncate_eq_floor h.le]
  rfl

theorem fits_rcsVadCreate {sampleRate : ℚ} (h : 0 < sampleRate) (threshold : ℚ) :
    Fits (⌊sampleRate⌋ / 1000 * 32).toNat (rcsVadCreate sampleRate threshold) := by
  have hfloor : 0 ≤ ⌊sampleRate⌋ := Int.floor_nonneg.mpr h.le
  have hwindow := windowSizeSamples_rcsVadCreate h threshold
  rw [← hwindow]
  apply fits_initEngine
  exact le_of_le_of_eq (by omega : 0 ≤ ⌊sampleRate⌋ / 1000 * 32) hwindow.symm

/-- Below 1000 samples a second a window has none. -/
theorem window_eq_zero_iff {sampleRate : ℚ} (h : 0 < sampleRate) :
    (⌊sampleRate⌋ / 1000 * 32).toNat = 0 ↔ sampleRate < 1000 := by
  have hfloor : 0 ≤ ⌊sampleRate⌋ := Int.floor_nonneg.mpr h.le
  have hlt : ⌊sampleRate⌋ < 1000 ↔ sampleRate < 1000 := Int.floor_lt
  rw [← hlt]
  omega

theorem fits_of_history {ε : Type} {sampleRate threshold : ℚ} (h : 0 < sampleRate) {e : Engine}
    (hcalls : Relation.ReflTransGen (Call ε) ⟨rcsVadCreate sampleRate threshold, []⟩ e) :
    Fits (⌊sampleRate⌋ / 1000 * 32).toNat e.vad := by
  have hcreated : Configured (rcsVadCreate sampleRate threshold) e.vad :=
    Configured.history ⟨rfl, rfl, rfl, rfl⟩ hcalls
  exact hcreated.fits (fits_rcsVadCreate h threshold)

theorem endsAlways_of_samples {sampleRate : ℚ} (h : 0 < sampleRate) (threshold : ℚ)
    {data : List Int16} (hsamples : 1000 ≤ sampleRate ∨ data = []) :
    EndsAlways sampleRate threshold data := by
  intro ε session e hcalls
  rcases hsamples with hhigh | rfl
  · have hpos := Nat.pos_of_ne_zero (mt (window_eq_zero_iff h).mp hhigh.not_gt)
    exact ends_of_sized session ((fits_of_history h hcalls).sized hpos) data
  · exact ends_nil session e

/-- With a session that answers every time the loop ends exactly when windows
have samples, or the capture has none. -/
theorem ends_answered_iff {ε : Type} {sampleRate threshold : ℚ} (h : 0 < sampleRate) {e : Engine}
    (hcalls : Relation.ReflTransGen (Call ε) ⟨rcsVadCreate sampleRate threshold, []⟩ e)
    (f : ModelCall → ℚ × List.Vector ℚ sizeState) (data : List Int16) :
    Ends (ε := ε) (fun c => .ok (f c)) e data ↔ 1000 ≤ sampleRate ∨ data = [] := by
  constructor
  · intro hends
    by_contra! hcond
    obtain ⟨hlow, hdata⟩ := hcond
    have hfits := fits_of_history h hcalls
    rw [(window_eq_zero_iff h).mpr hlow] at hfits
    exact not_ends_of_fits f hfits hdata hends
  · intro hsamples
    exact endsAlways_of_samples h threshold hsamples ε _ e hcalls

theorem samples_of_endsAlways {sampleRate threshold : ℚ} (h : 0 < sampleRate) {data : List Int16}
    (hends : EndsAlways sampleRate threshold data) : 1000 ≤ sampleRate ∨ data = [] := by
  have hanswered := hends Unit (fun _ => .ok (0, List.Vector.replicate _ 0)) _ .refl
  exact (ends_answered_iff h .refl _ data).mp hanswered

/-- **The window loop ends** from 1000 samples a second on, and below that on
the empty capture only. -/
theorem endsAlways_iff {sampleRate : ℚ} (h : 0 < sampleRate) (threshold : ℚ)
    (data : List Int16) :
    EndsAlways sampleRate threshold data ↔ 1000 ≤ sampleRate ∨ data = [] :=
  ⟨samples_of_endsAlways h, endsAlways_of_samples h threshold⟩

/-- The rate of the scanner, and one that is no multiple of 1000. -/
theorem endsAlways_iff_rates :
    EndsAlways 16000 0.5 (List.replicate 1027 64) ∧ EndsAlways 22050.5 0.5 [1, 2, 3] :=
  ⟨(endsAlways_iff (by norm_num) _ _).mpr (.inl (by norm_num)),
    (endsAlways_iff (by norm_num) _ _).mpr (.inl (by norm_num))⟩

/-- One sample at 800 Hz. -/
theorem not_endsAlways_eightHundred : ¬ EndsAlways 800 0.5 [64] := by
  intro hends
  have hsamples := samples_of_endsAlways (by norm_num) hends
  norm_num at hsamples

end RadioChatter.Vad
