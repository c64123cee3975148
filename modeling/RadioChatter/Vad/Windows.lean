import RadioChatter.Vad.Verdict
import RadioChatter.Lib.Overlap

/-!
What the session is shown.

`init_engine` fixes the sizes once, and every copy in `predict` stays inside
its vector because the lengths of the context and of the recurrent state
never change afterwards. Window after window, the tensors are the overlapping
windows of the capture, with zeros in front of it.
-/

namespace RadioChatter.Vad

open Checked

/-- The sizes of the object fit each other, for windows of `W` samples. -/
structure Sized (W : ℕ) (v : VadIterator) : Prop where
  pos : 0 < W
  window : v.windowSizeSamples = W
  contextSamples : v.contextSamples = (W / 8 : ℕ)
  effective : v.effectiveWindowSize = (W / 8 + W : ℕ)
  context : v.context.length = W / 8
  state : v.state.length = sizeState

/-- The same sizes, also for windows without samples. -/
structure Fits (W : ℕ) (v : VadIterator) : Prop where
  window : v.windowSizeSamples = W
  contextSamples : v.contextSamples = (W / 8 : ℕ)
  effective : v.effectiveWindowSize = (W / 8 + W : ℕ)
  context : v.context.length = W / 8
  state : v.state.length = sizeState

theorem Sized.fits {W : ℕ} {v : VadIterator} (h : Sized W v) : Fits W v :=
  ⟨h.window, h.contextSamples, h.effective, h.context, h.state⟩

theorem Fits.sized {W : ℕ} {v : VadIterator} (h : Fits W v) (hpos : 0 < W) : Sized W v :=
  ⟨hpos, h.window, h.contextSamples, h.effective, h.context, h.state⟩

/-- Only the parameters and two lengths matter. -/
theorem Fits.congr {W : ℕ} {v v' : VadIterator} (h : Fits W v) (hparams : v'.toParams = v.toParams)
    (hcontext : v'.context.length = v.context.length)
    (hstate : v'.state.length = v.state.length) : Fits W v' := by
  refine ⟨?_, ?_, ?_, hcontext.trans h.context, hstate.trans h.state⟩
  · rw [hparams, h.window]
  · rw [hparams, h.contextSamples]
  · rw [hparams, h.effective]

theorem Fits.resetStates {W : ℕ} {v : VadIterator} (h : Fits W v) : Fits W v.resetStates :=
  h.congr rfl List.length_replicate List.length_replicate

theorem fits_initEngine {v : VadIterator} {ms : ℤ}
    (h : 0 ≤ (v.initEngine ms).windowSizeSamples) :
    Fits (v.initEngine ms).windowSizeSamples.toNat (v.initEngine ms) := by
  obtain ⟨W, hW⟩ := Int.eq_ofNat_of_zero_le h
  have hcontext : (v.initEngine ms).contextSamples = (W / 8 : ℕ) := by
    change (v.initEngine ms).windowSizeSamples.tdiv 8 = _
    rw [hW]
    exact (Int.ofNat_tdiv W 8).symm
  have heffective : (v.initEngine ms).effectiveWindowSize =
      (v.initEngine ms).windowSizeSamples + (v.initEngine ms).contextSamples := rfl
  have hlength : (v.initEngine ms).context.length = (v.initEngine ms).contextSamples.toNat :=
    List.length_replicate
  have hstate : (v.initEngine ms).state.length = sizeState := List.takeD_length ..
  rw [hW, Int.toNat_natCast]
  refine ⟨hW, hcontext, ?_, ?_, hstate⟩
  · rw [heffective, hW, hcontext]
    omega
  · rw [hlength, hcontext, Int.toNat_natCast]

theorem sized_initEngine {v : VadIterator} {ms : ℤ}
    (h : 0 < (v.initEngine ms).windowSizeSamples) :
    Sized (v.initEngine ms).windowSizeSamples.toNat (v.initEngine ms) :=
  (fits_initEngine h.le).sized (by omega)

/-! ### One call of the session -/

/-- The tensors that `predict` makes of a chunk. -/
def VadIterator.callOn (v : VadIterator) (dataChunk : List ℚ) : ModelCall :=
  ⟨v.context ++ dataChunk, v.inputNodeDims, v.state, v.sr⟩

/-- The engine once the session has answered. -/
def Engine.answered {ε : Type} (e : Engine) (dataChunk : List ℚ) :
    Except ε (ℚ × List.Vector ℚ sizeState) → Engine × Except ε ℚ
  | .error x =>
      (⟨{ e.vad with input := e.vad.context ++ dataChunk },
        e.calls ++ [e.vad.callOn dataChunk]⟩, .error x)
  | .ok (speechProb, stateN) =>
      (⟨{ e.vad with
          input := e.vad.context ++ dataChunk
          state := stateN.toList
          context := (e.vad.context ++ dataChunk).drop dataChunk.length },
        e.calls ++ [e.vad.callOn dataChunk]⟩, .ok speechProb)

/-- No copy of `predict` leaves its vector. -/
theorem predict_eq {ε : Type} (session : Session ε) {W : ℕ} {e : Engine} (h : Fits W e.vad)
    {dataChunk : List ℚ} (hchunk : dataChunk.length = W) :
    predict session e dataChunk =
      .ok (e.answered dataChunk (session (e.vad.callOn dataChunk))) := by
  obtain ⟨v, calls⟩ := e
  have hcontext : v.context.length = W / 8 := h.context
  have hfirst : blit (List.replicate v.effectiveWindowSize.toNat (0 : ℚ)) 0 v.context =
      .ok (v.context ++ List.replicate W 0) := by
    rw [show v.effectiveWindowSize = _ from h.effective, Int.toNat_natCast,
      blit_eq_ok (by rw [List.length_replicate, hcontext]; omega)]
    simp [hcontext]
  have hsecond : blit (v.context ++ List.replicate W 0) v.contextSamples.toNat dataChunk =
      .ok (v.context ++ dataChunk) := by
    rw [show v.contextSamples = _ from h.contextSamples, Int.toNat_natCast,
      blit_eq_ok (by simp [hcontext, hchunk])]
    simp [← hcontext, hchunk]
  unfold predict
  simp only [hfirst, hsecond, bind, Except.bind]
  rw [show ModelCall.mk (v.context ++ dataChunk) v.inputNodeDims v.state v.sr =
    v.callOn dataChunk from rfl]
  cases session (v.callOn dataChunk) with
  | error x => rfl
  | ok answer =>
      obtain ⟨speechProb, stateN⟩ := answer
      have hstate : blit v.state 0 stateN.toList = .ok stateN.toList :=
        blit_all (by rw [List.Vector.toList_length, show v.state.length = _ from h.state])
      have htail : takeEnd (v.context ++ dataChunk) v.contextSamples.toNat =
          .ok ((v.context ++ dataChunk).drop dataChunk.length) := by
        rw [show v.contextSamples = _ from h.contextSamples, Int.toNat_natCast,
          takeEnd_eq_ok (by rw [List.length_append]; omega), List.length_append, hcontext,
          Nat.add_sub_cancel_left]
      have hnext : blit v.context 0 ((v.context ++ dataChunk).drop dataChunk.length) =
          .ok ((v.context ++ dataChunk).drop dataChunk.length) := by
        apply blit_all
        rw [List.length_drop, List.length_append, Nat.add_sub_cancel]
      simp only [hstate, htail, hnext]
      rfl

theorem Fits.answered {ε : Type} {W : ℕ} {e : Engine} (h : Fits W e.vad) (dataChunk : List ℚ)
    (r : Except ε (ℚ × List.Vector ℚ sizeState)) : Fits W (e.answered dataChunk r).1.vad := by
  cases r with
  | error x => exact ⟨h.window, h.contextSamples, h.effective, h.context, h.state⟩
  | ok answer =>
      obtain ⟨speechProb, stateN⟩ := answer
      refine ⟨h.window, h.contextSamples, h.effective, ?_, stateN.toList_length⟩
      simp only [Engine.answered, List.length_drop, List.length_append, Nat.add_sub_cancel]
      exact h.context

@[simp] theorem length_calls_answered {ε : Type} (e : Engine) (dataChunk : List ℚ)
    (r : Except ε (ℚ × List.Vector ℚ sizeState)) :
    (e.answered dataChunk r).1.calls.length = e.calls.length + 1 := by
  cases r <;> exact List.length_append

/-! ### Every capture is read to its end -/

/-- The scan of `DoVad` has not begun. -/
def VadIterator.Unscanned (v : VadIterator) : Prop :=
  v = v.scored v.outputsProb v.totalSampleSize

theorem Engine.unscanned_answered {ε : Type} {e : Engine} (h : e.vad.Unscanned)
    (dataChunk : List ℚ) (r : Except ε (ℚ × List.Vector ℚ sizeState)) :
    (e.answered dataChunk r).1.vad.Unscanned := by
  cases r with
  | error x =>
      simp only [VadIterator.Unscanned, VadIterator.scored, Engine.answered] at h ⊢
      rw [h]
  | ok answer =>
      simp only [VadIterator.Unscanned, VadIterator.scored, Engine.answered] at h ⊢
      rw [h]

@[simp] theorem sizeT_natCast (n : ℕ) : sizeT n = n := by
  simp [sizeT]

/-- An iteration without faults: the session answers for a whole window, and
the loop is left at the first one that the capture does not fill. -/
theorem speechProbsBody_eq {ε : Type} (session : Session ε) {W : ℕ} {e : Engine} {wav : List ℚ}
    (h : Sized W e.vad) (htotal : e.vad.totalSampleSize = wav.length) (j : ℕ) :
    speechProbsBody session wav (e, j) =
      if j + W ≤ wav.length then
        match e.answered ((wav.take (j + W)).drop j)
          (session (e.vad.callOn ((wav.take (j + W)).drop j))) with
        | (e', .error x) => .inr (.ok (e', .error x))
        | (e', .ok speechProb) =>
            .inl ({ e' with vad := { e'.vad with
              outputsProb := e'.vad.outputsProb ++ [speechProb] } }, j + W)
      else .inr (.ok (e, .ok ())) := by
  have hpos : 0 < W := h.pos
  have hwindow : sizeT e.vad.windowSizeSamples = W := by rw [h.window, sizeT_natCast]
  have hlength : sizeT e.vad.totalSampleSize = wav.length := by rw [htotal, sizeT_natCast]
  simp only [speechProbsBody, hwindow, hlength]
  by_cases hj : j + W ≤ wav.length
  · have hchunk : ((wav.take (j + W)).drop j).length = W := by
      rw [List.length_drop, List.length_take]
      omega
    rw [if_pos (by omega), if_neg (by omega), if_pos hj, slice_eq_ok (by omega) hj]
    simp only [bind, Except.bind, predict_eq session h.fits hchunk]
    cases session (e.vad.callOn ((wav.take (j + W)).drop j)) <;> rfl
  · have hend : wav.length < j + W := by omega
    simp only [hj, hend, if_true, if_false, ite_self]

/-- What holds of the object while `SpeechProbs` reads a capture. -/
structure Reading (W : ℕ) (wav : List ℚ) (v : VadIterator) : Prop where
  sized : Sized W v
  unscanned : v.Unscanned
  total : v.totalSampleSize = wav.length

theorem Reading.resetStates {W : ℕ} {v : VadIterator} (h : Sized W v) (wav : List ℚ) :
    Reading W wav { v.resetStates with totalSampleSize := wav.length } where
  sized := Fits.sized (h.fits.resetStates.congr rfl rfl rfl) h.pos
  unscanned := rfl
  total := rfl

theorem Reading.answered {ε : Type} {W : ℕ} {wav : List ℚ} {e : Engine}
    (h : Reading W wav e.vad) (dataChunk : List ℚ) (r : Except ε (ℚ × List.Vector ℚ sizeState)) :
    Reading W wav (e.answered dataChunk r).1.vad where
  sized := (h.sized.fits.answered dataChunk r).sized h.sized.pos
  unscanned := Engine.unscanned_answered h.unscanned dataChunk r
  total := by cases r <;> exact h.total

/-- What an iteration can do: stop at a window that the capture does not fill,
or call the session once, which answers or throws. -/
theorem Reading.body_cases {ε : Type} (session : Session ε) {W : ℕ} {wav : List ℚ} {e : Engine}
    (h : Reading W wav e.vad) (j : ℕ) :
    (wav.length < j + W ∧ speechProbsBody session wav (e, j) = .inr (.ok (e, .ok ()))) ∨
    (j + W ≤ wav.length ∧ ∃ e', Reading W wav e'.vad ∧
      e'.calls.length = e.calls.length + 1 ∧
      (speechProbsBody session wav (e, j) = .inl (e', j + W) ∨
        ∃ x, speechProbsBody session wav (e, j) = .inr (.ok (e', .error x)))) := by
  have hbody := speechProbsBody_eq session h.sized h.total j
  by_cases hj : j + W ≤ wav.length
  · rw [if_pos hj] at hbody
    have hread := h.answered ((wav.take (j + W)).drop j)
      (session (e.vad.callOn ((wav.take (j + W)).drop j)))
    have hcalls := length_calls_answered e ((wav.take (j + W)).drop j)
      (session (e.vad.callOn ((wav.take (j + W)).drop j)))
    refine .inr ⟨hj, ?_⟩
    split at hbody
    next e' x hanswer =>
      rw [hanswer] at hread hcalls
      exact ⟨e', hread, hcalls, .inr ⟨x, hbody⟩⟩
    next e' p hanswer =>
      rw [hanswer] at hread hcalls
      obtain ⟨hsized, hscan, htotal⟩ := hread
      refine ⟨{ e' with vad := { e'.vad with outputsProb := e'.vad.outputsProb ++ [p] } },
        ⟨Fits.sized (hsized.fits.congr rfl rfl rfl) hsized.pos, ?_, htotal⟩, hcalls, .inl hbody⟩
      simp only [VadIterator.Unscanned, VadIterator.scored] at hscan ⊢
      rw [hscan]
  · rw [if_neg hj] at hbody
    exact .inl ⟨by omega, hbody⟩

theorem Reading.step {ε : Type} {session : Session ε} {W : ℕ} {wav : List ℚ} {e e' : Engine}
    {j j' : ℕ} (h : Reading W wav e.vad)
    (hbody : speechProbsBody session wav (e, j) = .inl (e', j')) :
    Reading W wav e'.vad ∧ j' = j + W ∧ j' ≤ wav.length ∧
      e'.calls.length = e.calls.length + 1 := by
  obtain ⟨-, hend⟩ | ⟨hj, s, hread, hcalls, hnext | ⟨x, hthrown⟩⟩ := h.body_cases session j
  · rw [hend] at hbody
    cases hbody
  · obtain ⟨rfl, rfl⟩ := Prod.mk.inj (Sum.inl.inj (hnext.symm.trans hbody))
    exact ⟨hread, rfl, hj, hcalls⟩
  · rw [hthrown] at hbody
    cases hbody

theorem Reading.exit {ε : Type} {session : Session ε} {W : ℕ} {wav : List ℚ} {e : Engine} {j : ℕ}
    {outcome : Except Fault (Engine × Except ε Unit)} (h : Reading W wav e.vad)
    (hbody : speechProbsBody session wav (e, j) = .inr outcome) :
    ∃ e' r, outcome = .ok (e', r) ∧ Reading W wav e'.vad ∧
      (e'.calls.length = e.calls.length ∨
        j + W ≤ wav.length ∧ e'.calls.length = e.calls.length + 1) := by
  obtain ⟨-, hend⟩ | ⟨hj, s, hread, hcalls, hnext | ⟨x, hthrown⟩⟩ := h.body_cases session j
  · exact ⟨e, _, Sum.inr.inj (hbody.symm.trans hend), h, .inl rfl⟩
  · rw [hnext] at hbody
    cases hbody
  · exact ⟨s, _, Sum.inr.inj (hbody.symm.trans hthrown), hread, .inr ⟨hj, hcalls⟩⟩

/-- What holds at the test of the loop: the calls that were made, `calls` of
them before this capture, are as many windows as the loop has passed. -/
structure Counting (W : ℕ) (wav : List ℚ) (calls : ℕ) (s : Engine × ℕ) : Prop where
  reading : Reading W wav s.1.vad
  position : s.2 ≤ wav.length
  calls : s.1.calls.length * W = calls * W + s.2

theorem Counting.step {ε : Type} {session : Session ε} {W : ℕ} {wav : List ℚ} {calls : ℕ}
    {s s' : Engine × ℕ} (h : Counting W wav calls s)
    (hbody : speechProbsBody session wav s = .inl s') :
    Counting W wav calls s' ∧ wav.length - s'.2 < wav.length - s.2 := by
  obtain ⟨e, j⟩ := s
  obtain ⟨e', j'⟩ := s'
  obtain ⟨hreading, hposition, hcount⟩ := h
  obtain ⟨hread, rfl, hj, hcalls⟩ := hreading.step hbody
  have hpos : 0 < W := hread.sized.pos
  refine ⟨⟨hread, hj, ?_⟩, ?_⟩
  · simp only at hcount ⊢
    rw [hcalls, Nat.succ_mul, hcount]
    omega
  · simp only
    omega

theorem Counting.exit {ε : Type} {session : Session ε} {W : ℕ} {wav : List ℚ} {calls : ℕ}
    {s : Engine × ℕ} {outcome : Except Fault (Engine × Except ε Unit)}
    (h : Counting W wav calls s) (hbody : speechProbsBody session wav s = .inr outcome) :
    ∃ e' r, outcome = .ok (e', r) ∧ Reading W wav e'.vad ∧
      e'.calls.length * W ≤ calls * W + wav.length := by
  obtain ⟨e, j⟩ := s
  obtain ⟨hreading, hposition, hcount⟩ := h
  simp only at hreading hposition hcount
  obtain ⟨e', r, rfl, hread, hcalls⟩ := hreading.exit hbody
  refine ⟨e', r, rfl, hread, ?_⟩
  rcases hcalls with hcalls | ⟨hj, hcalls⟩
  · rw [hcalls]
    omega
  · -- The call that threw was one for a whole window.
    rw [hcalls, Nat.succ_mul]
    omega

/-- Whatever the session does, the loop returns, without a fault, and leaves
the scan to `DoVad`; it has called the session once for each whole window at
most. -/
theorem speechProbs_ok {ε : Type} (session : Session ε) {W fuel : ℕ} {e : Engine}
    (h : Sized W e.vad) {wav : List ℚ} (hfuel : wav.length < fuel) :
    ∃ e' r, speechProbs session fuel e wav = some (.ok (e', r)) ∧ Reading W wav e'.vad ∧
      e'.calls.length * W ≤ e.calls.length * W + wav.length := by
  let start : Engine × ℕ :=
    ({ e with vad := { e.vad.resetStates with totalSampleSize := wav.length } }, 0)
  have hstart : Counting W wav e.calls.length start :=
    ⟨Reading.resetStates h wav, Nat.zero_le _, rfl⟩
  obtain ⟨outcome, hrun⟩ := BoundedLoop.run_terminates (Counting W wav e.calls.length)
    (fun s => wav.length - s.2) (fun _ _ hs hbody => hs.step hbody) hstart hfuel
  obtain ⟨e', r, rfl, hread, hcalls⟩ := BoundedLoop.run_invariant
    (Counting W wav e.calls.length)
    (fun outcome : Except Fault (Engine × Except ε Unit) =>
      ∃ e' r, outcome = .ok (e', r) ∧ Reading W wav e'.vad ∧
        e'.calls.length * W ≤ e.calls.length * W + wav.length)
    (fun _ _ hs hbody => (hs.step hbody).1) (fun _ _ hs hbody => hs.exit hbody) hstart hrun
  exact ⟨e', r, hrun, hread, hcalls⟩

/-! ### All calls of a capture -/

section Trace

variable (f : ModelCall → ℚ × List.Vector ℚ sizeState) (W : ℕ) (wav : List ℚ)

/-- The tensors of call `j`: a window of the capture, and the recurrent state
that the call before it returned. -/
def callAt (v : VadIterator) : ℕ → ModelCall
  | 0 => ⟨Overlap.window 0 (W / 8) W wav 0, v.inputNodeDims, List.replicate sizeState 0, v.sr⟩
  | j + 1 =>
      ⟨Overlap.window 0 (W / 8) W wav (j + 1), v.inputNodeDims, (f (callAt v j)).2.toList, v.sr⟩

/-- The tensor that the object keeps after `k` windows. -/
def inputAfter (v : VadIterator) (k : ℕ) : List ℚ :=
  if k = 0 then v.input else Overlap.window 0 (W / 8) W wav (k - 1)

/-- The engine after the first `k` windows of the capture. -/
def engineAt (e : Engine) (k : ℕ) : Engine where
  vad :=
    { e.vad.resetStates with
      totalSampleSize := wav.length
      input := inputAfter W wav e.vad k
      state := (callAt f W wav e.vad k).state
      context := Overlap.context 0 (W / 8) W wav k
      outputsProb := (List.range k).map fun j => (f (callAt f W wav e.vad j)).1 }
  calls := e.calls ++ (List.range k).map (callAt f W wav e.vad)

variable {f W wav}

theorem callAt_eq (v : VadIterator) (j : ℕ) :
    callAt f W wav v j = ⟨Overlap.window 0 (W / 8) W wav j, v.inputNodeDims,
      (callAt f W wav v j).state, v.sr⟩ := by
  cases j <;> rfl

theorem engineAt_zero {e : Engine} (h : Sized W e.vad) :
    engineAt f W wav e 0 =
      { e with vad := { e.vad.resetStates with totalSampleSize := wav.length } } := by
  simp [engineAt, inputAfter, callAt, VadIterator.resetStates, Overlap.context_zero, h.context,
    h.state]

theorem sized_engineAt {e : Engine} (h : Sized W e.vad) {k : ℕ} (hk : k * W ≤ wav.length) :
    Sized W (engineAt f W wav e k).vad where
  pos := h.pos
  window := h.window
  contextSamples := h.contextSamples
  effective := h.effective
  context := Overlap.length_context hk
  state := by
    cases k with
    | zero => exact List.length_replicate
    | succ k => exact List.Vector.toList_length _

/-- One window: the chunk completes the saved context to the window of the
capture, and the end of that window is the context to save. -/
theorem speechProbsBody_engineAt {ε : Type} {e : Engine} (h : Sized W e.vad) {k : ℕ}
    (hk : k * W + W ≤ wav.length) :
    speechProbsBody (ε := ε) (fun c => .ok (f c)) wav (engineAt f W wav e k, k * W) =
      .inl (engineAt f W wav e (k + 1), (k + 1) * W) := by
  have hsized : Sized W (engineAt f W wav e k).vad := sized_engineAt h (by omega)
  have hchunk : ((wav.take (k * W + W)).drop (k * W)).length = W := by
    rw [List.length_drop, List.length_take]
    omega
  have hinput : (engineAt f W wav e k).vad.context ++ (wav.take (k * W + W)).drop (k * W) =
      Overlap.window 0 (W / 8) W wav k := Overlap.context_append_chunk k
  have hcall : (engineAt f W wav e k).vad.callOn ((wav.take (k * W + W)).drop (k * W)) =
      callAt f W wav e.vad k := by
    rw [VadIterator.callOn, hinput, callAt_eq]
    rfl
  rw [speechProbsBody_eq _ hsized rfl, if_pos hk, hcall]
  simp only [Engine.answered, hcall, hinput, hchunk, Overlap.drop_window]
  rw [Nat.succ_mul]
  simp [engineAt, inputAfter, List.range_succ, callAt]

/-- The loop is left at the first window that the capture does not fill. -/
theorem speechProbsBody_engineAt_last {ε : Type} {e : Engine} (h : Sized W e.vad)
    (session : Session ε) :
    speechProbsBody session wav
        (engineAt f W wav e (wav.length / W), wav.length / W * W) =
      .inr (.ok (engineAt f W wav e (wav.length / W), .ok ())) := by
  have hdiv : wav.length < wav.length / W * W + W := by
    have hmod := Nat.mod_lt wav.length h.pos
    have hsum := Nat.div_add_mod' wav.length W
    omega
  have hsized : Sized W (engineAt f W wav e (wav.length / W)).vad :=
    sized_engineAt h (Nat.div_mul_le_self _ _)
  rw [speechProbsBody_eq _ hsized rfl, if_neg (by omega)]

theorem speechProbs_eq {ε : Type} {e : Engine} (h : Sized W e.vad) {fuel : ℕ}
    (hfuel : wav.length / W < fuel) :
    speechProbs (ε := ε) (fun c => .ok (f c)) fuel e wav =
      some (.ok (engineAt f W wav e (wav.length / W), .ok ())) := by
  have hstart : ({ e with vad := { e.vad.resetStates with totalSampleSize := wav.length } }, 0) =
      (engineAt f W wav e 0, 0 * W) := by
    rw [engineAt_zero h, Nat.zero_mul]
  rw [speechProbs, hstart]
  apply BoundedLoop.run_of_trace (s := fun k => (engineAt f W wav e k, k * W)) _
    (speechProbsBody_engineAt_last h _) hfuel
  intro k hk
  apply speechProbsBody_engineAt h
  have hle : (k + 1) * W ≤ wav.length :=
    (Nat.mul_le_mul_right W hk).trans (Nat.div_mul_le_self _ _)
  rwa [Nat.succ_mul] at hle

theorem resetStates_engineAt {e : Engine} (h : Sized W e.vad) {k : ℕ}
    (hk : k * W ≤ wav.length) :
    (engineAt f W wav e k).vad.resetStates =
      { e.vad.resetStates with input := inputAfter W wav e.vad k } := by
  have hsized : Sized W (engineAt f W wav e k).vad := sized_engineAt h hk
  rw [VadIterator.resetStates, VadIterator.resetStates, hsized.context, hsized.state, h.context,
    h.state]
  rfl

/-- The probabilities that the session gives the windows of a capture. -/
def probsOf (f : ModelCall → ℚ × List.Vector ℚ sizeState) (W : ℕ) (wav : List ℚ)
    (v : VadIterator) : List ℚ :=
  (List.range (wav.length / W)).map fun j => (f (callAt f W wav v j)).1

section InputData

variable {e : Engine} {data : List Int16}

/-- The object that `SpeechProbs` leaves behind. -/
theorem engineAt_inputData (f : ModelCall → ℚ × List.Vector ℚ sizeState) (e : Engine)
    (data : List Int16) :
    (engineAt f W (inputData data) e (data.length / W)).vad =
      (engineAt f W (inputData data) e (data.length / W)).vad.scored
        (probsOf f W (inputData data) e.vad) data.length := by
  have hlength : (inputData data).length = data.length := List.length_map ..
  rw [probsOf, ← hlength]
  rfl

theorem speechProbs_inputData {ε : Type} (h : Sized W e.vad) {fuel : ℕ}
    (hfuel : data.length / W < fuel) :
    speechProbs (ε := ε) (fun c => .ok (f c)) fuel e (inputData data) =
      some (.ok (engineAt f W (inputData data) e (data.length / W), .ok ())) := by
  have hlength : (inputData data).length = data.length := List.length_map ..
  rw [← hlength] at hfuel ⊢
  exact speechProbs_eq h hfuel

theorem window_engineAt_pos (h : Sized W e.vad) (wav : List ℚ) (k : ℕ) :
    0 < (engineAt f W wav e k).vad.windowSizeSamples := by
  rw [show (engineAt f W wav e k).vad.windowSizeSamples = W from h.window]
  exact_mod_cast h.pos

end InputData

/-- A capture from the samples to the verdict. -/
theorem hasVoiceActivity_eq {ε : Type} {e : Engine} (h : Sized W e.vad) {data : List Int16}
    {fuel : ℕ} (hfuel : data.length / W < fuel) :
    hasVoiceActivity (ε := ε) (fun c => .ok (f c)) fuel e data =
      some (.ok
        (⟨{ e.vad.resetStates with input := inputAfter W (inputData data) e.vad (data.length / W) },
          e.calls ++ (List.range (data.length / W)).map (callAt f W (inputData data) e.vad)⟩,
        .ok (decide (∃ g ∈ e.vad.speechSegments (probsOf f W (inputData data) e.vad),
          e.vad.LongEnough data.length g)))) := by
  obtain ⟨speeches, hspeeches, hiff⟩ := VadIterator.getSpeechTimestamps_scored
    (window_engineAt_pos (f := f) h (inputData data) (data.length / W))
    (probsOf f W (inputData data) e.vad) data.length
  have hreset : (engineAt f W (inputData data) e (data.length / W)).vad.resetStates =
      { e.vad.resetStates with input := inputAfter W (inputData data) e.vad (data.length / W) } :=
    resetStates_engineAt h (by
      rw [inputData, List.length_map]
      exact Nat.div_mul_le_self _ _)
  rw [hasVoiceActivity, speechProbs_inputData h hfuel, Option.map_some]
  simp only [bind, Except.bind]
  rw [engineAt_inputData, hspeeches]
  simp only [hiff, hreset]
  rfl

/-! ### The windows of a capture by their samples -/

/-- Sample `i` of the capture as the session sees it: zero in front of the
first one. -/
def sampleAt (data : List Int16) (i : ℤ) : ℚ :=
  if 0 ≤ i then (data.getD i.toNat 0).toInt / 32768 else 0

theorem window_inputData {data : List Int16} {C j : ℕ} (h : j * W + W ≤ data.length) :
    Overlap.window 0 C W (inputData data) j =
      (List.range (C + W)).map fun t : ℕ => sampleAt data ((j * W : ℕ) - C + t) := by
  have hlength : (inputData data).length = data.length := List.length_map ..
  rw [Overlap.window_eq_map_range (by rwa [hlength])]
  apply List.map_congr_left
  intro t ht
  have hlt : t < C + W := List.mem_range.mp ht
  rw [sampleAt]
  by_cases hC : C ≤ j * W + t
  · have hi : ((j * W : ℕ) - C + t : ℤ).toNat = j * W + t - C := by omega
    have hin : j * W + t - C < data.length := by omega
    rw [if_pos hC, if_pos (by omega), hi, List.getD_eq_getElem?_getD, inputData,
      List.getElem?_map, List.getD_eq_getElem?_getD, List.getElem?_eq_getElem hin]
    simp only [Option.map_some, Option.getD_some, normalizationFactor]
    norm_num
  · rw [if_neg hC, if_neg (by omega)]

/-- Captures that agree up to the last whole window make the same calls. -/
theorem callAt_congr {data data' : List Int16} {m : ℕ}
    (h : data'.take (m * W) = data.take (m * W)) (v : VadIterator) {j : ℕ} (hj : j < m) :
    callAt f W (inputData data') v j = callAt f W (inputData data) v j := by
  have hinput : (inputData data').take (m * W) = (inputData data).take (m * W) := by
    rw [inputData, inputData, ← List.map_take, ← List.map_take, h]
  induction j with
  | zero => simp only [callAt, Overlap.window_congr hj hinput]
  | succ j ih => simp only [callAt, Overlap.window_congr hj hinput, ih (by omega)]

/-- The samples after the last whole window are not used. -/
theorem hasVoiceActivity_congr {ε : Type} {e : Engine} (h : Sized W e.vad) {data data' : List Int16}
    (hlength : data'.length = data.length)
    (htake : data'.take (data.length / W * W) = data.take (data.length / W * W))
    {fuel : ℕ} (hfuel : data.length / W < fuel) :
    hasVoiceActivity (ε := ε) (fun c => .ok (f c)) fuel e data' =
      hasVoiceActivity (fun c => .ok (f c)) fuel e data := by
  have hinput : inputAfter W (inputData data') e.vad (data.length / W) =
      inputAfter W (inputData data) e.vad (data.length / W) := by
    by_cases hzero : data.length / W = 0
    · simp only [inputAfter, hzero, if_true]
    · simp only [inputAfter, hzero, if_false]
      apply Overlap.window_congr (Nat.sub_lt (Nat.pos_of_ne_zero hzero) Nat.one_pos)
      rw [inputData, inputData, ← List.map_take, ← List.map_take, htake]
  have hcongr : ∀ j ∈ List.range (data.length / W),
      callAt f W (inputData data') e.vad j = callAt f W (inputData data) e.vad j := by
    intro j hj
    exact callAt_congr htake _ (List.mem_range.mp hj)
  have hprobs : probsOf f W (inputData data') e.vad = probsOf f W (inputData data) e.vad := by
    simp only [probsOf, inputData, List.length_map, hlength]
    apply List.map_congr_left
    intro j hj
    exact congrArg (fun c => (f c).1) (hcongr j hj)
  rw [hasVoiceActivity_eq h (by rwa [hlength]), hasVoiceActivity_eq h hfuel, hlength, hinput,
    hprobs, List.map_congr_left hcongr]

end Trace

/-- **The windows of a capture.** Every whole window makes one call; its input
is the window of the capture with the samples before it, its recurrent state
the one of the call before, and nothing else of the capture is used. -/
theorem hasVoiceActivity_windows {ε : Type} (f : ModelCall → ℚ × List.Vector ℚ sizeState)
    (v : VadIterator) (ms : ℤ) {W fuel : ℕ} (hW : (v.initEngine ms).windowSizeSamples = W)
    (hpos : 0 < W) (data : List Int16) (hfuel : data.length / W < fuel) :
    ∃ e b, hasVoiceActivity (ε := ε) (fun c => .ok (f c)) fuel ⟨v.initEngine ms, []⟩ data =
        some (.ok (e, .ok b)) ∧
      e.calls.length = data.length / W ∧
      (∀ j c, e.calls[j]? = some c → c.input =
        (List.range (W / 8 + W)).map fun t : ℕ => sampleAt data ((j * W : ℕ) - (W / 8 : ℕ) + t)) ∧
      (∀ c, e.calls[0]? = some c → c.state = List.replicate sizeState 0) ∧
      (∀ j c d, e.calls[j]? = some c → e.calls[j + 1]? = some d → d.state = (f c).2.toList) ∧
      ∀ data' : List Int16, data'.length = data.length →
        data'.take (data.length / W * W) = data.take (data.length / W * W) →
        hasVoiceActivity (ε := ε) (fun c => .ok (f c)) fuel ⟨v.initEngine ms, []⟩ data' =
          some (.ok (e, .ok b)) := by
  have hsized : Sized W (v.initEngine ms) := by
    have h : Sized _ (v.initEngine ms) := sized_initEngine (by omega)
    rwa [hW, Int.toNat_natCast] at h
  have hcalls : ∀ {j c}, ((List.range (data.length / W)).map
      (callAt f W (inputData data) (v.initEngine ms)))[j]? = some c →
      j < data.length / W ∧ c = callAt f W (inputData data) (v.initEngine ms) j := by
    intro j c hc
    rw [List.getElem?_map, Option.map_eq_some_iff] at hc
    obtain ⟨i, hi, rfl⟩ := hc
    obtain ⟨hlt, rfl⟩ := List.getElem?_eq_some_iff.mp hi
    simpa using hlt
  refine ⟨_, _, hasVoiceActivity_eq hsized hfuel, ?_, ?_, ?_, ?_, ?_⟩
  · simp
  · intro j c hc
    obtain ⟨hj, rfl⟩ := hcalls hc
    have hle : j * W + W ≤ data.length := by
      rw [← Nat.succ_mul]
      exact (Nat.mul_le_mul_right W hj).trans (Nat.div_mul_le_self _ _)
    rw [callAt_eq]
    exact window_inputData hle
  · intro c hc
    obtain ⟨-, rfl⟩ := hcalls hc
    rfl
  · -- The state that the session returned is copied into the next call.
    intro j c d hc hd
    obtain ⟨-, rfl⟩ := hcalls hc
    obtain ⟨-, rfl⟩ := hcalls hd
    rfl
  · intro data' hlength htake
    rw [hasVoiceActivity_congr hsized hlength htake hfuel]
    exact hasVoiceActivity_eq hsized hfuel

/-- Two windows and three samples at 16 kHz, before a session that answers
with the first sample of its input. -/
theorem hasVoiceActivity_windows_sixteenKilohertz :
    ∃ e b, hasVoiceActivity (ε := Unit) (fun c => .ok (c.input.headD 0, List.Vector.replicate _ 1))
        3 ⟨(rcsVadCreate 16000 0.5).initEngine 32, []⟩ (List.replicate 1027 64) =
      some (.ok (e, .ok b)) ∧ e.calls.length = 2 := by
  have hfuel : (List.replicate 1027 (64 : Int16)).length / 512 < 3 := by
    rw [List.length_replicate]
    decide
  obtain ⟨e, b, hrun, hlength, -⟩ := hasVoiceActivity_windows (ε := Unit)
    (fun c => (c.input.headD 0, List.Vector.replicate _ 1)) (rcsVadCreate 16000 0.5) 32
    (by decide +kernel) (by decide) _ hfuel
  refine ⟨e, b, hrun, ?_⟩
  rw [hlength, List.length_replicate]

end RadioChatter.Vad
