import RadioChatter.Vad.Windows
import Mathlib.Logic.Relation

/-!
Captures do not leak into each other.

Between two calls the object keeps its configuration and the lengths of its
context and of its recurrent state; `reset_states` brings everything else back,
except for the last input tensor, and `predict` overwrites that one before
anything reads it. So the module goes through the functions of the object
twice: once with two objects that differ in that tensor only, and once for
what every call keeps.
-/

namespace RadioChatter.Vad

open Checked

/-- The two objects differ in their last input tensor only. -/
def VadIterator.Agree (v v' : VadIterator) : Prop := v' = { v with input := v'.input }

/-- Engines whose objects agree, with the same answer. -/
def AgreeWith {α : Type} (s s' : Engine × α) : Prop := s.1.vad.Agree s'.1.vad ∧ s.2 = s'.2

/-! ### A capture, before two objects that agree -/

theorem predict_agree {ε : Type} (session : Session ε) {e e' : Engine} (h : e.vad.Agree e'.vad)
    (dataChunk : List ℚ) :
    Rel AgreeWith (predict session e dataChunk) (predict session e' dataChunk) := by
  obtain ⟨v, calls⟩ := e
  obtain ⟨v', calls'⟩ := e'
  change v' = { v with input := v'.input } at h
  rw [h]
  unfold predict
  apply Rel.bind_same
  intro withContext
  apply Rel.bind_same
  intro newData
  simp only
  -- The session is shown the same tensors, so it gives the same answer.
  cases session ⟨newData, v.inputNodeDims, v.state, v.sr⟩ with
  | error x =>
      apply Rel.ok
      exact ⟨rfl, rfl⟩
  | ok answer =>
      apply Rel.bind_same
      intro state
      apply Rel.bind_same
      intro tail
      apply Rel.bind_same
      intro context
      apply Rel.ok
      exact ⟨rfl, rfl⟩

theorem speechProbsBody_agree {ε : Type} (session : Session ε) (wav : List ℚ)
    {e e' : Engine} (h : e.vad.Agree e'.vad) (j : ℕ) :
    Sum.LiftRel AgreeWith (Rel AgreeWith)
      (speechProbsBody session wav (e, j)) (speechProbsBody session wav (e', j)) := by
  have htotal : e'.vad.totalSampleSize = e.vad.totalSampleSize := by rw [h]
  have hwindow : e'.vad.windowSizeSamples = e.vad.windowSizeSamples := by rw [h]
  have hpredict : Rel AgreeWith
      (slice wav j (j + sizeT e.vad.windowSizeSamples) >>= predict session e)
      (slice wav j (j + sizeT e.vad.windowSizeSamples) >>= predict session e') :=
    .bind_same (predict_agree session h)
  simp only [speechProbsBody, htotal, hwindow]
  split
  · split
    · exact .inr (.ok ⟨h, rfl⟩)
    · generalize slice wav j (j + sizeT e.vad.windowSizeSamples) >>= predict session e = x
        at hpredict
      generalize slice wav j (j + sizeT e.vad.windowSizeSamples) >>= predict session e' = x'
        at hpredict
      cases hpredict with
      | fault fault => exact .inr (.fault fault)
      | @ok a b hab =>
          obtain ⟨s, r⟩ := a
          obtain ⟨s', r'⟩ := b
          obtain ⟨hagree, rfl⟩ : s.vad.Agree s'.vad ∧ r = r' := hab
          cases r with
          | error x => exact .inr (.ok ⟨hagree, rfl⟩)
          | ok speechProb =>
              refine .inl ⟨?_, rfl⟩
              simp only [VadIterator.Agree]
              rw [hagree]
  · exact .inr (.ok ⟨h, rfl⟩)

theorem speechProbs_agree {ε : Type} (session : Session ε) (fuel : ℕ) (wav : List ℚ)
    {e e' : Engine} (h : e.vad.resetStates.Agree e'.vad.resetStates) :
    Option.Rel (Rel AgreeWith) (speechProbs session fuel e wav)
      (speechProbs session fuel e' wav) := by
  apply BoundedLoop.run_rel AgreeWith
  · rintro ⟨s, j⟩ ⟨s', j'⟩ ⟨hs, rfl⟩
    exact speechProbsBody_agree session wav hs j
  · refine ⟨?_, rfl⟩
    simp only [VadIterator.Agree]
    rw [h]

namespace VadIterator

/-- Objects that agree, with the same list. -/
def SameList {α : Type} (s s' : VadIterator × List α) : Prop := s.1.Agree s'.1 ∧ s.2 = s'.2

theorem quietWindow_agree {s s' : VadIterator × List OpenInterval} (h : SameList s s') :
    Rel SameList (quietWindow s) (quietWindow s') := by
  obtain ⟨v, speeches⟩ := s
  obtain ⟨v', speeches'⟩ := s'
  obtain ⟨hv, rfl⟩ := h
  change v' = { v with input := v'.input } at hv
  rw [hv]
  -- Whether the silence begins here or not, the rest is the same.
  by_cases htemp : v.tempEnd = 0 <;> simp only [quietWindow, htemp, if_true, if_false]
  all_goals
    split
    · apply Rel.bind_same
      intro speeches
      apply Rel.ok
      exact ⟨rfl, rfl⟩
    · apply Rel.ok
      exact ⟨rfl, rfl⟩

theorem doVadStep_agree {s s' : VadIterator × List OpenInterval} (p : ℚ) (h : SameList s s') :
    Rel SameList (doVadStep s p) (doVadStep s' p) := by
  obtain ⟨v, speeches⟩ := s
  obtain ⟨v', speeches'⟩ := s'
  obtain ⟨hv, rfl⟩ := h
  change v' = { v with input := v'.input } at hv
  rw [hv]
  by_cases hhigh : v.threshold ≤ p
  · by_cases htemp : v.tempEnd = 0 <;>
      simp only [doVadStep, hhigh, htemp, if_true, true_and, not_true, not_false_iff, ne_eq,
        if_false]
    all_goals
      split <;> apply Rel.ok <;> exact ⟨rfl, rfl⟩
  · simp only [doVadStep, hhigh, if_false, false_and]
    split
    · split
      · apply quietWindow_agree
        exact ⟨rfl, rfl⟩
      · apply Rel.ok
        exact ⟨rfl, rfl⟩
    · apply Rel.ok
      exact ⟨rfl, rfl⟩

theorem doVadFlush_agree {s s' : VadIterator × List OpenInterval} (h : SameList s s') :
    Rel SameList (doVadFlush s) (doVadFlush s') := by
  obtain ⟨v, speeches⟩ := s
  obtain ⟨v', speeches'⟩ := s'
  obtain ⟨hv, rfl⟩ := h
  change v' = { v with input := v'.input } at hv
  rw [hv]
  unfold doVadFlush
  split
  · apply Rel.bind_same
    intro speeches
    apply Rel.ok
    exact ⟨rfl, rfl⟩
  · apply Rel.ok
    exact ⟨rfl, rfl⟩

theorem doVad_agree {v v' : VadIterator} (h : v.Agree v') : Rel SameList v.doVad v'.doVad := by
  have hprobs : v'.outputsProb = v.outputsProb := by rw [h]
  unfold doVad
  rw [hprobs]
  have hloop : Rel SameList (v.outputsProb.foldlM doVadStep (v, []))
      (v.outputsProb.foldlM doVadStep (v', [])) :=
    Rel.foldlM (fun s s' p => doVadStep_agree p) v.outputsProb ⟨h, rfl⟩
  apply Rel.bind hloop
  intro s s' hs
  apply Rel.bind (doVadFlush_agree hs)
  rintro ⟨u, speeches⟩ ⟨u', speeches'⟩ ⟨hu, rfl⟩
  change u' = { u with input := u'.input } at hu
  rw [hu]
  apply Rel.bind_same
  intro speeches
  apply Rel.ok
  exact ⟨rfl, rfl⟩

theorem getSpeechTimestamps_agree {v v' : VadIterator} (h : v.Agree v') :
    Rel SameList v.getSpeechTimestamps v'.getSpeechTimestamps := by
  unfold getSpeechTimestamps
  apply Rel.bind (doVad_agree h)
  rintro ⟨u, speeches⟩ ⟨u', speeches'⟩ ⟨hu, rfl⟩
  change u' = { u with input := u'.input } at hu
  rw [hu]
  dsimp only
  split <;> apply Rel.ok <;> exact ⟨rfl, rfl⟩

end VadIterator

/-! ### What every call keeps -/

/-- The second object has the configuration of the first one, and vectors of
the same lengths. -/
structure Configured (v₀ v : VadIterator) : Prop where
  options : v.toOptions = v₀.toOptions
  params : v.toParams = v₀.toParams
  context : v.context.length = v₀.context.length
  state : v.state.length = v₀.state.length

variable {v₀ : VadIterator}

theorem Configured.agree {v : VadIterator} (h : Configured v₀ v) :
    v₀.resetStates.Agree v.resetStates := by
  obtain ⟨hoptions, hparams, hcontext, hstate⟩ := h
  rw [VadIterator.Agree, VadIterator.resetStates, VadIterator.resetStates, hcontext, hstate,
    hoptions, hparams]

theorem Configured.predict {ε : Type} {session : Session ε} {e e' : Engine} {dataChunk : List ℚ}
    {r : Except ε ℚ} (h : Configured v₀ e.vad)
    (hrun : predict session e dataChunk = .ok (e', r)) : Configured v₀ e'.vad := by
  unfold RadioChatter.Vad.predict at hrun
  obtain ⟨withContext, -, hrun⟩ := bind_eq_ok.mp hrun
  obtain ⟨newData, -, hrun⟩ := bind_eq_ok.mp hrun
  simp only at hrun
  cases hanswer : session ⟨newData, e.vad.inputNodeDims, e.vad.state, e.vad.sr⟩ with
  | error x =>
      rw [hanswer] at hrun
      obtain ⟨rfl, -⟩ := Prod.mk.inj (Except.ok.inj hrun)
      exact ⟨h.options, h.params, h.context, h.state⟩
  | ok answer =>
      rw [hanswer] at hrun
      obtain ⟨state, hstate, hrun⟩ := bind_eq_ok.mp hrun
      obtain ⟨tail, -, hrun⟩ := bind_eq_ok.mp hrun
      obtain ⟨context, hcontext, hrun⟩ := bind_eq_ok.mp hrun
      obtain ⟨rfl, -⟩ := Prod.mk.inj (Except.ok.inj hrun)
      exact ⟨h.options, h.params, (length_of_blit hcontext).trans h.context,
        (length_of_blit hstate).trans h.state⟩

/-- What one test and iteration of the loop can do, whatever sizes the object
has. -/
theorem speechProbsBody_cases {ε : Type} (session : Session ε) (wav : List ℚ) (e : Engine)
    (j : ℕ) :
    speechProbsBody session wav (e, j) = .inr (.ok (e, .ok ())) ∨
    (∃ fault, speechProbsBody session wav (e, j) = .inr (.error fault)) ∨
    ∃ dataChunk e' r, predict session e dataChunk = .ok (e', r) ∧
      ((∃ x, speechProbsBody session wav (e, j) = .inr (.ok (e', .error x))) ∨
        ∃ p j', speechProbsBody session wav (e, j) = .inl ({ e' with vad := { e'.vad with
          outputsProb := e'.vad.outputsProb ++ [p] } }, j')) := by
  simp only [speechProbsBody]
  split
  · split
    · exact .inl rfl
    · right
      cases hcall : slice wav j (j + sizeT e.vad.windowSizeSamples) >>= predict session e with
      | error fault => exact .inl ⟨fault, rfl⟩
      | ok answer =>
          obtain ⟨e', r⟩ := answer
          obtain ⟨dataChunk, -, hpredict⟩ := bind_eq_ok.mp hcall
          refine .inr ⟨dataChunk, e', r, hpredict, ?_⟩
          cases r with
          | error x => exact .inl ⟨x, rfl⟩
          | ok speechProb => exact .inr ⟨speechProb, _, rfl⟩
  · exact .inl rfl

theorem Configured.speechProbs {ε : Type} {session : Session ε} {fuel : ℕ} {wav : List ℚ}
    {e e' : Engine} {r : Except ε Unit} (h : Configured v₀ e.vad)
    (hrun : speechProbs session fuel e wav = some (.ok (e', r))) : Configured v₀ e'.vad := by
  have hstart : Configured v₀ { e.vad.resetStates with totalSampleSize := wav.length } :=
    ⟨h.options, h.params, List.length_replicate.trans h.context,
      List.length_replicate.trans h.state⟩
  -- The loop keeps the configuration, whichever way it is left.
  apply BoundedLoop.run_invariant (fun s : Engine × ℕ => Configured v₀ s.1.vad)
    (fun outcome => ∀ e' r, outcome = .ok (e', r) → Configured v₀ e'.vad) _ _ hstart hrun e' r rfl
  · rintro ⟨s, j⟩ s' hs hbody
    obtain hend | ⟨fault, hend⟩ | ⟨dataChunk, t, r, hpredict, ⟨x, hend⟩ | ⟨p, j', hnext⟩⟩ :=
      speechProbsBody_cases session wav s j
    · cases hend.symm.trans hbody
    · cases hend.symm.trans hbody
    · cases hend.symm.trans hbody
    · obtain rfl := Sum.inl.inj (hnext.symm.trans hbody)
      have ht : Configured v₀ t.vad := Configured.predict hs hpredict
      exact ⟨ht.options, ht.params, ht.context, ht.state⟩
  · rintro ⟨s, j⟩ outcome hs hbody e' r rfl
    obtain hend | ⟨fault, hend⟩ | ⟨dataChunk, t, r, hpredict, ⟨x, hend⟩ | ⟨p, j', hnext⟩⟩ :=
      speechProbsBody_cases session wav s j
    · cases hend.symm.trans hbody
      exact hs
    · cases hend.symm.trans hbody
    · cases hend.symm.trans hbody
      exact Configured.predict hs hpredict
    · cases hnext.symm.trans hbody

theorem Configured.quietWindow {s s' : VadIterator × List OpenInterval}
    (h : Configured v₀ s.1) (hrun : VadIterator.quietWindow s = .ok s') :
    Configured v₀ s'.1 := by
  by_cases htemp : s.1.tempEnd = 0 <;>
    simp only [VadIterator.quietWindow, htemp, if_true, if_false] at hrun
  all_goals
    split at hrun
    · obtain ⟨speeches, -, hrun⟩ := bind_eq_ok.mp hrun
      obtain rfl := Except.ok.inj hrun
      exact ⟨h.options, h.params, h.context, h.state⟩
    · obtain rfl := Except.ok.inj hrun
      exact ⟨h.options, h.params, h.context, h.state⟩

theorem Configured.doVadStep {s s' : VadIterator × List OpenInterval} {p : ℚ}
    (h : Configured v₀ s.1) (hrun : VadIterator.doVadStep s p = .ok s') :
    Configured v₀ s'.1 := by
  have hscan : ∀ c t tempEnd, Configured v₀
      { s.1 with currentSample := c, triggered := t, tempEnd := tempEnd } := by
    intro c t tempEnd
    exact ⟨h.options, h.params, h.context, h.state⟩
  by_cases hhigh : s.1.threshold ≤ p
  · by_cases htemp : s.1.tempEnd = 0 <;>
      simp only [VadIterator.doVadStep, hhigh, htemp, if_true, true_and, not_true, not_false_iff,
        ne_eq, if_false] at hrun
    all_goals
      split at hrun <;> obtain rfl := Except.ok.inj hrun <;> exact hscan _ _ _
  · simp only [VadIterator.doVadStep, hhigh, if_false, false_and] at hrun
    split at hrun
    · split at hrun
      · apply Configured.quietWindow _ hrun
        exact hscan _ _ _
      · obtain rfl := Except.ok.inj hrun
        exact hscan _ _ _
    · obtain rfl := Except.ok.inj hrun
      exact hscan _ _ _

theorem Configured.resetStates {v : VadIterator} (h : Configured v₀ v) :
    Configured v₀ v.resetStates where
  options := h.options
  params := h.params
  context := List.length_replicate.trans h.context
  state := List.length_replicate.trans h.state

theorem Configured.doVad {v v' : VadIterator} {speeches : List Interval}
    (h : Configured v₀ v) (hrun : v.doVad = .ok (v', speeches)) : Configured v₀ v' := by
  obtain ⟨s, hloop, hrun⟩ := bind_eq_ok.mp hrun
  have hs : Configured v₀ s.1 :=
    foldlM_invariant (fun s : VadIterator × List OpenInterval => Configured v₀ s.1)
      (fun _ _ _ hs hstep => hs.doVadStep hstep) _ h hloop
  obtain ⟨⟨u, opened⟩, hflush, hrun⟩ := bind_eq_ok.mp hrun
  have hu : Configured v₀ u := by
    unfold VadIterator.doVadFlush at hflush
    split at hflush
    · obtain ⟨speeches, -, hflush⟩ := bind_eq_ok.mp hflush
      obtain ⟨rfl, -⟩ := Prod.mk.inj (Except.ok.inj hflush)
      exact ⟨hs.options, hs.params, hs.context, hs.state⟩
    · obtain rfl := Except.ok.inj hflush
      exact hs
  obtain ⟨closed, -, hrun⟩ := bind_eq_ok.mp hrun
  obtain ⟨rfl, -⟩ := Prod.mk.inj (Except.ok.inj hrun)
  exact hu.resetStates

theorem Configured.getSpeechTimestamps {v v' : VadIterator} {speeches : List Interval}
    (h : Configured v₀ v) (hrun : v.getSpeechTimestamps = .ok (v', speeches)) :
    Configured v₀ v' := by
  obtain ⟨⟨u, samples⟩, hvad, hrun⟩ := bind_eq_ok.mp hrun
  have hu : Configured v₀ u := h.doVad hvad
  dsimp only at hrun
  split at hrun
  · obtain ⟨rfl, -⟩ := Prod.mk.inj (Except.ok.inj hrun)
    exact hu
  · obtain ⟨rfl, -⟩ := Prod.mk.inj (Except.ok.inj hrun)
    exact hu

/-! ### Histories -/

/-- The object that the constructor and `SetVariables` make. -/
def freshEngine (o : Options) : Engine := ⟨(newVadIterator o).setVariables, []⟩

/-- One call on the object; it may have been ended by an exception. -/
inductive Call (ε : Type) : Engine → Engine → Prop
  | speechProbs {session : Session ε} {fuel : ℕ} {wav : List ℚ} {e e' : Engine}
      {r : Except ε Unit} (h : speechProbs session fuel e wav = some (.ok (e', r))) : Call ε e e'
  | getSpeechTimestamps {e : Engine} {v : VadIterator} {speeches : List Interval}
      (h : e.vad.getSpeechTimestamps = .ok (v, speeches)) : Call ε e { e with vad := v }

theorem Configured.history {ε : Type} {e e' : Engine} (h : Configured v₀ e.vad)
    (hcalls : Relation.ReflTransGen (Call ε) e e') : Configured v₀ e'.vad := by
  induction hcalls with
  | refl => exact h
  | tail _ hcall ih =>
      cases hcall with
      | speechProbs hrun => exact ih.speechProbs hrun
      | getSpeechTimestamps hrun => exact ih.getSpeechTimestamps hrun

/-- `SpeechProbs` and then `GetSpeechTimestamps`: whether the session threw,
and the timestamps. -/
def timestamps {ε : Type} (session : Session ε) (fuel : ℕ) (e : Engine) (wav : List ℚ) :
    Option (Except Fault (Except ε Unit × List Interval)) :=
  (speechProbs session fuel e wav).map fun outcome => do
    let (e, r) ← outcome
    let (_, speeches) ← e.vad.getSpeechTimestamps
    pure (r, speeches)

/-- What the caller of `has_voice_activity` sees. -/
def voiceActivity {ε : Type} (session : Session ε) (fuel : ℕ) (e : Engine) (data : List Int16) :
    Option (Except Fault (Except ε Bool)) :=
  (hasVoiceActivity session fuel e data).map fun outcome => do
    let (_, verdict) ← outcome
    pure verdict

theorem timestamps_congr {ε : Type} (session : Session ε) (fuel : ℕ) {e e' : Engine}
    (h : e.vad.resetStates.Agree e'.vad.resetStates) (wav : List ℚ) :
    timestamps session fuel e' wav = timestamps session fuel e wav := by
  have hprobs := speechProbs_agree session fuel wav h
  unfold timestamps
  generalize speechProbs session fuel e wav = x at hprobs
  generalize speechProbs session fuel e' wav = x' at hprobs
  cases hprobs with
  | none => rfl
  | some hrel =>
      rw [Option.map_some, Option.map_some, Option.some.injEq]
      apply Eq.symm
      apply Rel.eq
      apply Rel.bind hrel
      rintro ⟨s, r⟩ ⟨s', r'⟩ ⟨hs, rfl⟩
      apply Rel.bind (VadIterator.getSpeechTimestamps_agree hs)
      rintro ⟨v, speeches⟩ ⟨v', speeches'⟩ ⟨-, rfl⟩
      exact .ok rfl

theorem hasVoiceActivity_agree {ε : Type} (session : Session ε) (fuel : ℕ) {e e' : Engine}
    (h : e.vad.resetStates.Agree e'.vad.resetStates) (data : List Int16) :
    Option.Rel (Rel AgreeWith) (hasVoiceActivity session fuel e data)
      (hasVoiceActivity session fuel e' data) := by
  have hprobs := speechProbs_agree session fuel (inputData data) h
  unfold hasVoiceActivity
  generalize speechProbs session fuel e (inputData data) = x at hprobs
  generalize speechProbs session fuel e' (inputData data) = x' at hprobs
  cases hprobs with
  | none => exact .none
  | some hrel =>
      apply Option.Rel.some
      apply Rel.bind hrel
      rintro ⟨s, r⟩ ⟨s', r'⟩ ⟨hs, rfl⟩
      cases r with
      | error x => exact .ok ⟨hs, rfl⟩
      | ok u =>
          apply Rel.bind (VadIterator.getSpeechTimestamps_agree hs)
          rintro ⟨v, speeches⟩ ⟨v', speeches'⟩ ⟨hv, rfl⟩
          exact .ok ⟨hv, rfl⟩

theorem voiceActivity_congr {ε : Type} (session : Session ε) (fuel : ℕ) {e e' : Engine}
    (h : e.vad.resetStates.Agree e'.vad.resetStates) (data : List Int16) :
    voiceActivity session fuel e' data = voiceActivity session fuel e data := by
  have hverdict := hasVoiceActivity_agree session fuel h data
  unfold voiceActivity
  generalize hasVoiceActivity session fuel e data = x at hverdict
  generalize hasVoiceActivity session fuel e' data = x' at hverdict
  cases hverdict with
  | none => rfl
  | some hrel =>
      rw [Option.map_some, Option.map_some, Option.some.injEq]
      apply Eq.symm
      apply Rel.eq
      apply Rel.bind hrel
      rintro ⟨s, r⟩ ⟨s', r'⟩ ⟨-, rfl⟩
      exact .ok rfl

/-- After any history, a capture is read to its end without a fault. -/
theorem timestamps_ok {ε : Type} (session : Session ε) {W fuel : ℕ} {e : Engine}
    (h : Sized W e.vad) {wav : List ℚ} (hfuel : wav.length < fuel) :
    ∃ r, timestamps session fuel e wav = some (.ok r) := by
  obtain ⟨e', r, hprobs, hread, -⟩ := speechProbs_ok session h hfuel
  have hW : 0 < e'.vad.windowSizeSamples := by
    rw [hread.sized.window]
    exact_mod_cast h.pos
  obtain ⟨speeches, hspeeches, -⟩ :=
    VadIterator.getSpeechTimestamps_scored hW e'.vad.outputsProb e'.vad.totalSampleSize
  rw [← hread.unscanned] at hspeeches
  rw [timestamps, hprobs, Option.map_some]
  simp only [bind, Except.bind, hspeeches]
  exact ⟨_, rfl⟩

theorem Configured.fits {W : ℕ} {v : VadIterator} (h : Configured v₀ v) (hv : Fits W v₀) :
    Fits W v :=
  hv.congr h.params h.context h.state

theorem Configured.sized {W : ℕ} {v : VadIterator} (h : Configured v₀ v) (hv : Sized W v₀) :
    Sized W v :=
  (h.fits hv.fits).sized hv.pos

/-- **No state leaks between captures.** After any history of calls, the next
capture gives what it gives on an object that has just been configured. -/
theorem capture_independent_of_history {ε : Type} {o : Options} {e : Engine}
    (hcalls : Relation.ReflTransGen (Call ε) (freshEngine o) e) (session : Session ε) (fuel : ℕ) :
    (∀ wav, timestamps session fuel e wav = timestamps session fuel (freshEngine o) wav) ∧
    (∀ data, voiceActivity session fuel e data =
      voiceActivity session fuel (freshEngine o) data) ∧
    (0 < (freshEngine o).vad.windowSizeSamples → ∀ wav, wav.length < fuel →
      ∃ r, timestamps session fuel e wav = some (.ok r)) := by
  have hfresh : Configured (freshEngine o).vad (freshEngine o).vad := ⟨rfl, rfl, rfl, rfl⟩
  have hconfigured := hfresh.history hcalls
  refine ⟨timestamps_congr session fuel hconfigured.agree,
    voiceActivity_congr session fuel hconfigured.agree, ?_⟩
  intro hW wav hfuel
  exact timestamps_ok session (hconfigured.sized (sized_initEngine hW)) hfuel

/-- A first capture whose session throws at the second window. -/
theorem capture_independent_of_history_throwing :
    ∃ e r, speechProbs (ε := Unit)
        (fun c => if c.state.headD 0 = 0 then .ok (1, List.Vector.replicate _ 1) else .error ())
        1025 (freshEngine defaultOptions) (List.replicate 1024 0) = some (.ok (e, r)) ∧
      ∀ (session : Session Unit) (fuel : ℕ) (wav : List ℚ),
        timestamps session fuel e wav =
          timestamps session fuel (freshEngine defaultOptions) wav := by
  have hwindow : 0 < (freshEngine defaultOptions).vad.windowSizeSamples := by decide +kernel
  have hsized : Sized _ (freshEngine defaultOptions).vad := sized_initEngine hwindow
  have hfuel : (List.replicate 1024 (0 : ℚ)).length < 1025 := by
    rw [List.length_replicate]
    decide
  obtain ⟨e, r, hrun, -⟩ := speechProbs_ok (ε := Unit)
    (fun c => if c.state.headD 0 = 0 then .ok (1, List.Vector.replicate _ 1) else .error ())
    hsized hfuel
  refine ⟨e, r, hrun, ?_⟩
  intro session fuel wav
  exact (capture_independent_of_history (.single (.speechProbs hrun)) session fuel).1 wav

end RadioChatter.Vad
