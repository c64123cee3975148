import RadioChatter.Radio.Growth
import RadioChatter.Radio.Processes

/-!
What reaches the parent, and when it stops.

A child that writes whole samples never has one of them taken apart: what the
parent has stored and what the pipe still holds are together all that was
written, at any moment of any run. The clock is only looked at between two reads,
so that a silent child keeps the parent waiting beyond every timeout, and a child
that has ended lets it go.
-/

namespace RadioChatter.Radio

open Checked Schedule

/-! ### The variables of the parent -/

@[simp] theorem Capture.extend_nil (c : Capture) : c.extend [] = c := by
  rw [extend, List.append_nil]

theorem pipe_of_resize {c₀ c : Capture} (h : resize c₀ = .ok c) : c.pipe = c₀.pipe := by
  unfold resize at h
  split at h
  · split at h
    · cases h
      rfl
    · cases h
  · cases h
    rfl

theorem pipe_of_store {c₀ c : Capture} {bytes : List UInt8} (h : store c₀ bytes = .ok c) :
    c.pipe = c₀.pipe.drop bytes.length := by
  unfold store at h
  cases hblit : blit c₀.radioData (sampleSize * c₀.dataLen) (bytes.map some) with
  | error fault =>
      rw [hblit] at h
      cases h
  | ok radioData =>
      rw [hblit] at h
      cases h
      rfl

section Captured

variable {timeout : ℚ} {w : World}

/-- The variables of the parent are those of the capture of what is written, in
all surroundings that continue the run. -/
theorem Simulated.captured_of_agrees (h : Simulated timeout w)
    (hfault : ∀ fault, w.parent ≠ .faulted fault) {kernel : Kernel} (hagrees : w.Agrees kernel) :
    Captured kernel timeout w.written w.capture := by
  have hmirrors := h.mirrors kernel [] hagrees fun _ => rfl
  rw [List.append_nil, Capture.extend_nil] at hmirrors
  cases hparent : w.parent with
  | forked =>
      rw [hparent] at hmirrors
      exact hmirrors ▸ captured_newCapture
  | starting =>
      rw [hparent] at hmirrors
      exact hmirrors ▸ captured_newCapture
  | testing =>
      rw [hparent] at hmirrors
      exact Captured.of_reachable hmirrors
  | reading =>
      rw [hparent] at hmirrors
      obtain ⟨c₀, hreach, -, hresize⟩ := hmirrors
      obtain ⟨c, hok, hc, -⟩ | ⟨herror, -⟩ := (Captured.of_reachable hreach).resize
      · obtain rfl := Except.ok.inj (hok.symm.trans hresize)
        exact hc
      · cases herror.symm.trans hresize
  | returned =>
      rw [hparent] at hmirrors
      obtain ⟨c₀, hreach, hbody⟩ := hmirrors
      exact ((Captured.of_reachable hreach).exit hbody).1
  | faulted fault => exact absurd hparent (hfault fault)

theorem Simulated.captured (h : Simulated timeout w) (hfault : ∀ fault, w.parent ≠ .faulted fault) :
    Captured w.kernel timeout w.written w.capture :=
  h.captured_of_agrees hfault w.agrees_kernel

/-- Only the growth of the buffer can go wrong. -/
theorem Simulated.faulted (h : Simulated timeout w) {fault : Fault}
    (hparent : w.parent = .faulted fault) :
    fault = .overflow ∧ Reached w.kernel timeout w.written (lastCap - 1) := by
  have hmirrors := h.mirrors w.kernel [] w.agrees_kernel fun _ => rfl
  rw [List.append_nil, hparent] at hmirrors
  obtain ⟨c₀, hreach, hbody⟩ := hmirrors
  have hcaptured := Captured.of_reachable hreach
  refine ⟨?_, hcaptured.exit hbody⟩
  obtain ⟨-, hstop⟩ | ⟨-, -, hstop⟩ | ⟨t, -, -, -, hstop⟩ | ⟨t, -, -, hgo⟩ := hcaptured.consumeBody
  · cases hstop.symm.trans hbody
  · cases hstop.symm.trans hbody
    rfl
  · cases hstop.symm.trans hbody
  · cases hgo.symm.trans hbody

end Captured

/-! ### Whole samples -/

/-- The action writes no part of a sample. -/
def WholeSamples (scene : Scene) : Act → Prop
  | .write bytes => sampleSize ∣ bytes.length
  | .execFails => sampleSize ∣ scene.unflushed.length
  | _ => True

/-- Nothing but whole samples is written, waits in the pipe or was read. -/
structure Whole (w : World) : Prop where
  written : sampleSize ∣ w.written.length
  pipe : sampleSize ∣ w.capture.pipe.length
  grants : .one ∉ w.grants

section Whole

variable {scene : Scene} {w w' : World}

theorem whole_forked (now : ℤ) : Whole (forked now) where
  written := Nat.dvd_zero _
  pipe := Nat.dvd_zero _
  grants := List.not_mem_nil

theorem Whole.deliver (h : Whole w) {bytes : List UInt8} (hbytes : sampleSize ∣ bytes.length) :
    Whole (w.deliver bytes) where
  written := by
    rw [World.deliver, List.length_append]
    exact Nat.dvd_add h.written hbytes
  pipe := by
    rw [World.deliver, List.length_append]
    exact Nat.dvd_add h.pipe hbytes
  grants := h.grants

theorem Whole.grant_append (h : Whole w) {g : Grant} (hg : g ≠ .one) :
    .one ∉ w.grants ++ [g] := by
  rw [List.mem_append, List.mem_singleton, not_or]
  exact ⟨h.grants, hg.symm⟩

/-- The first sample of the pipe is there as a whole. -/
theorem Whole.length_take (h : Whole w) (hpipe : w.capture.pipe ≠ []) :
    (w.capture.pipe.take sampleSize).length = sampleSize := by
  have hpos : 0 < w.capture.pipe.length := List.length_pos_iff.mpr hpipe
  have hle : sampleSize ≤ w.capture.pipe.length := Nat.le_of_dvd hpos h.pipe
  rw [List.length_take, Nat.min_eq_left hle]

theorem Whole.test (h : Whole w) (timeout : ℚ) : Whole (test timeout w) := by
  obtain ⟨-, heq⟩ | ⟨-, fault, -, heq⟩ | ⟨-, capture, hresize, heq⟩ := test_cases timeout w
  · rw [heq]
    exact ⟨h.written, h.pipe, h.grants⟩
  · rw [heq]
    exact ⟨h.written, h.pipe, h.grants⟩
  · rw [heq]
    exact ⟨h.written, (pipe_of_resize hresize).symm ▸ h.pipe, h.grants⟩

theorem Whole.served_ne_one (h : Whole w) (hpipe : w.capture.pipe ≠ []) :
    served (w.capture.pipe.take sampleSize) ≠ .one := by
  rw [served, h.length_take hpipe, if_neg (by rw [sampleSize]; omega)]
  intro h
  cases h

theorem Whole.read (h : Whole w) (hread : read w = some w') : Whole w' := by
  obtain ⟨-, -, rfl⟩ | ⟨hpipe, fault, -, rfl⟩ | ⟨hpipe, capture, hstore, rfl⟩ := read_cases hread
  · refine ⟨h.written, h.pipe, h.grant_append ?_⟩
    intro h
    cases h
  · exact ⟨h.written, h.pipe, h.grant_append (h.served_ne_one hpipe)⟩
  · refine ⟨h.written, ?_, h.grant_append (h.served_ne_one hpipe)⟩
    dsimp only
    rw [pipe_of_store hstore, h.length_take hpipe, List.length_drop]
    exact Nat.dvd_sub h.pipe (Nat.dvd_refl _)

theorem Whole.parentStep (h : Whole w) {timeout : ℚ} (hstep : parentStep timeout w = some w') :
    Whole w' := by
  obtain ⟨-, rfl⟩ | ⟨-, rfl⟩ | ⟨-, rfl⟩ | ⟨-, hread⟩ := parentStep_cases hstep
  · exact ⟨h.written, h.pipe, h.grants⟩
  · exact ⟨h.written, h.pipe, h.grants⟩
  · exact h.test timeout
  · exact h.read hread

theorem Whole.step (h : Whole w) {act : Act} (hact : WholeSamples scene act)
    (hstep : step scene w act = some w') : Whole w' := by
  obtain ⟨-, hparent⟩ | ⟨-, -, rfl⟩ | ⟨-, child, -, rfl⟩ | ⟨-, bytes, child, hbytes, rfl⟩ |
    ⟨now, -, rfl⟩ := step_cases hstep
  · exact h.parentStep hparent
  · refine ⟨h.written, h.pipe, h.grant_append ?_⟩
    intro h
    cases h
  · exact ⟨h.written, h.pipe, h.grants⟩
  · have hwhole : Whole (w.deliver bytes) := by
      obtain rfl | ⟨rfl, rfl⟩ := hbytes
      · exact h.deliver hact
      · exact h.deliver hact
    exact ⟨hwhole.written, hwhole.pipe, hwhole.grants⟩
  · exact ⟨h.written, h.pipe, h.grants⟩

theorem whole_of_exec {now : ℤ} {acts : List Act}
    (hexec : exec (RadioChatter.Radio.step scene) (forked now) acts = some w)
    (hacts : ∀ act ∈ acts, WholeSamples scene act) : Whole w :=
  exec_invariant Whole (WholeSamples scene) (fun _ _ _ hs hact hstep => hs.step hact hstep)
    (whole_forked now) hacts hexec

theorem Whole.grant_ne_one (h : Whole w) (n : ℕ) : w.kernel.grant n ≠ .one := by
  show w.grants.getD n .two ≠ .one
  rw [List.getD_eq_getElem?_getD]
  cases hn : w.grants[n]? with
  | none =>
      intro h
      cases h
  | some g =>
      rintro rfl
      exact h.grants (List.mem_of_getElem? hn)

theorem Whole.bytesAt_of_pipeAt (h : Whole w) {n : ℕ}
    (hpipe : sampleSize ∣ (pipeAt w.kernel w.written n).length) :
    (bytesAt w.kernel w.written n).length ≠ 1 := by
  rw [bytesAt]
  cases hgrant : w.kernel.grant n with
  | one => exact absurd hgrant (h.grant_ne_one n)
  | two =>
      rw [Grant.read, Option.getD_some, List.length_take]
      rw [sampleSize] at hpipe
      omega
  | error => simp [Grant.read]

/-- Then no read of the capture delivers half a sample. -/
theorem Whole.length_bytesAt (h : Whole w) (n : ℕ) :
    sampleSize ∣ (pipeAt w.kernel w.written n).length ∧
      (bytesAt w.kernel w.written n).length ≠ 1 := by
  induction n with
  | zero =>
      have hpipe : sampleSize ∣ (pipeAt w.kernel w.written 0).length := h.written
      exact ⟨hpipe, h.bytesAt_of_pipeAt hpipe⟩
  | succ n ih =>
      obtain ⟨hpipe, hbytes⟩ := ih
      have hsucc : sampleSize ∣ (pipeAt w.kernel w.written (n + 1)).length := by
        have hle := length_bytesAt_le w.kernel w.written n
        rw [pipeAt_succ, List.length_drop]
        rw [sampleSize] at hpipe hle ⊢
        omega
      exact ⟨hsucc, h.bytesAt_of_pipeAt hsucc⟩

/-- What the parent has stored, and what is left for it. -/
theorem Whole.stored (h : Whole w) {timeout : ℚ}
    (hcaptured : Captured w.kernel timeout w.written w.capture) :
    w.capture.pipe = w.written.drop (sampleSize * w.capture.dataLen) ∧
      sampleSize * w.capture.dataLen ≤ w.written.length ∧
      w.capture.radioData.take (sampleSize * w.capture.dataLen) =
        (w.written.take (sampleSize * w.capture.dataLen)).map some := by
  have hall : ∀ k < w.capture.dataLen, (bytesAt w.kernel w.written k).length = sampleSize := by
    intro k hk
    have hne := (h.length_bytesAt k).2
    have hle := length_bytesAt_le w.kernel w.written k
    have hpos := List.length_pos_iff.mpr (hcaptured.past k hk).2
    rw [sampleSize] at hle ⊢
    omega
  obtain ⟨hpipe, hle, hsamples⟩ := flatMap_sampleBytes_of_whole hall
  exact ⟨hcaptured.pipe.trans hpipe, hle, hcaptured.take_radioData.trans hsamples⟩

end Whole

/-- **No sample is lost, doubled or taken apart.** When the child writes whole
samples only, then at any moment of any run what the parent has stored and what
is still in the pipe are together what was written, unless the buffer has had to
grow beyond an `int`. -/
theorem whole_samples_delivered {scene : Scene} {now : ℤ} {acts : List Act} {w : World}
    (hexec : exec (step scene) (forked now) acts = some w)
    (hacts : ∀ act ∈ acts, WholeSamples scene act) :
    (w.parent = .faulted .overflow ∧ Reached w.kernel scene.timeout w.written (lastCap - 1)) ∨
      w.written.length = sampleSize * w.capture.dataLen + w.capture.pipe.length ∧
      w.written.map some =
        w.capture.radioData.take (sampleSize * w.capture.dataLen) ++ w.capture.pipe.map some := by
  have hsimulated := simulated_of_exec hexec
  by_cases hfault : ∃ fault, w.parent = .faulted fault
  · obtain ⟨fault, hparent⟩ := hfault
    obtain ⟨rfl, hreached⟩ := hsimulated.faulted hparent
    exact .inl ⟨hparent, hreached⟩
  · have hcaptured := hsimulated.captured (not_exists.mp hfault)
    obtain ⟨hpipe, hle, hsamples⟩ := (whole_of_exec hexec hacts).stored hcaptured
    refine .inr ⟨?_, ?_⟩
    · rw [hpipe, List.length_drop]
      omega
    · rw [hsamples, hpipe, ← List.map_append, List.take_append_drop]

theorem whole_samples_delivered_halfRead :
    ((worldAfter halfRead).parent = .faulted .overflow ∧
        Reached (worldAfter halfRead).kernel shortScene.timeout (worldAfter halfRead).written
          (lastCap - 1)) ∨
      (worldAfter halfRead).written.length =
          sampleSize * (worldAfter halfRead).capture.dataLen +
            (worldAfter halfRead).capture.pipe.length ∧
        (worldAfter halfRead).written.map some =
          (worldAfter halfRead).capture.radioData.take
              (sampleSize * (worldAfter halfRead).capture.dataLen) ++
            (worldAfter halfRead).capture.pipe.map some := by
  refine whole_samples_delivered (exec_worldAfter (by decide +kernel)) ?_
  simp [halfRead, WholeSamples, sampleSize]

/-! ### Why the parent stops -/

/-- A parent that complains has made a read that failed or came to the end of the
stream; to another one the last test said that the time is up. -/
def Because (timeout : ℚ) (w : World) : Prop :=
  if w.complained then w.grants.getLast? = some .error ∨ w.child = .ended ∧ w.capture.pipe = []
  else ∃ now, w.readings.getLast? = some now ∧ timeout ≤ ((now - w.start : ℤ) : ℚ)

/-- A parent complains when it returns and not before, and it has begun no read
without time. -/
structure Excused (timeout : ℚ) (w : World) : Prop where
  quiet : w.parent ≠ .returned → w.complained = false
  inTime : w.parent = .reading ∨ w.complained = true →
    ∃ now ∈ w.readings, ((now - w.start : ℤ) : ℚ) < timeout
  because : w.parent = .returned → Because timeout w

section Excused

variable {timeout : ℚ} {w w' : World}

theorem excused_forked (timeout : ℚ) (now : ℤ) : Excused timeout (forked now) where
  quiet := fun _ => rfl
  inTime := by rintro (h | h) <;> cases h
  because := nofun

/-- There is nothing to be said of a parent that neither reads nor has returned. -/
theorem Excused.of_waiting (hreading : w.parent ≠ .reading) (hreturned : w.parent ≠ .returned)
    (hquiet : w.complained = false) : Excused timeout w where
  quiet := fun _ => hquiet
  inTime := by
    rintro (h | h)
    · exact absurd h hreading
    · rw [hquiet] at h
      cases h
  because := fun h => absurd h hreturned

theorem Excused.test (h : Excused timeout w) (hparent : w.parent = .testing) :
    Excused timeout (test timeout w) := by
  have hquiet : w.complained = false := h.quiet (by rw [hparent]; nofun)
  obtain ⟨htime, heq⟩ | ⟨-, fault, -, heq⟩ | ⟨htime, capture, -, heq⟩ := test_cases timeout w
  · rw [heq]
    refine ⟨fun _ => hquiet, ?_, fun _ => ?_⟩
    · rintro (h | h)
      · cases h
      · cases hquiet.symm.trans h
    · rw [Because, hquiet, if_neg Bool.false_ne_true]
      exact ⟨w.now, List.getLast?_concat, htime⟩
  · rw [heq]
    exact .of_waiting nofun nofun hquiet
  · rw [heq]
    exact ⟨fun _ => hquiet, fun _ => ⟨w.now, List.mem_concat_self, htime⟩, nofun⟩

theorem Excused.read (h : Excused timeout w) (hparent : w.parent = .reading)
    (hread : read w = some w') : Excused timeout w' := by
  have hquiet : w.complained = false := h.quiet (by rw [hparent]; nofun)
  obtain ⟨hpipe, hchild, rfl⟩ | ⟨-, fault, -, rfl⟩ | ⟨-, capture, -, rfl⟩ := read_cases hread
  · refine ⟨fun h => absurd rfl h, fun _ => h.inTime (.inl hparent), fun _ => ?_⟩
    rw [Because, if_pos rfl]
    exact .inr ⟨hchild, hpipe⟩
  · exact .of_waiting nofun nofun hquiet
  · exact .of_waiting nofun nofun hquiet

theorem Excused.parentStep (h : Excused timeout w) (hstep : parentStep timeout w = some w') :
    Excused timeout w' := by
  obtain ⟨hparent, rfl⟩ | ⟨hparent, rfl⟩ | ⟨hparent, rfl⟩ | ⟨hparent, hread⟩ :=
    parentStep_cases hstep
  · exact .of_waiting nofun nofun (h.quiet (by rw [hparent]; nofun))
  · exact .of_waiting nofun nofun (h.quiet (by rw [hparent]; nofun))
  · exact h.test hparent
  · exact h.read hparent hread

/-- The reason stays: a child that has ended neither writes nor lives again. -/
theorem Because.of_alive (h : Because timeout w) (hchild : w.child ≠ .ended) (child : Child)
    (capture : Capture) (written : List UInt8) :
    Because timeout { w with child, capture, written } := by
  unfold Because at h ⊢
  split at h
  next hcomplained =>
    rw [if_pos hcomplained]
    exact .inl (h.resolve_right fun hended => hchild hended.1)
  next hcomplained =>
    rw [if_neg hcomplained]
    exact h

theorem Excused.step {scene : Scene} {act : Act} (h : Excused scene.timeout w)
    (hstep : step scene w act = some w') : Excused scene.timeout w' := by
  obtain ⟨-, hmove⟩ | ⟨-, hparent, rfl⟩ | ⟨hchild, child, -, rfl⟩ |
    ⟨hchild, bytes, child, -, rfl⟩ | ⟨now, -, rfl⟩ := step_cases hstep
  · exact h.parentStep hmove
  · refine ⟨fun h => absurd rfl h, fun _ => h.inTime (.inl hparent), fun _ => ?_⟩
    rw [Because, if_pos rfl]
    exact .inl List.getLast?_concat
  · exact ⟨h.quiet, h.inTime, fun hreturned =>
      (h.because hreturned).of_alive hchild child w.capture w.written⟩
  · exact ⟨h.quiet, h.inTime, fun hreturned => (h.because hreturned).of_alive hchild child _ _⟩
  · exact ⟨h.quiet, h.inTime, h.because⟩

theorem excused_of_exec {scene : Scene} {now : ℤ} {acts : List Act}
    (hexec : exec (RadioChatter.Radio.step scene) (forked now) acts = some w) :
    Excused scene.timeout w := by
  refine exec_invariant (Excused scene.timeout) (fun _ => True) ?_
    (excused_forked scene.timeout now) (fun _ _ => trivial) hexec
  intro s act s' hs _ hstep
  exact hs.step hstep

/-- Without time there is no read to complain of. -/
theorem Excused.not_complained (h : Excused timeout w)
    (hlate : ∀ now ∈ w.readings, timeout ≤ ((now - w.start : ℤ) : ℚ)) : w.complained = false := by
  by_contra hcomplained
  obtain ⟨now, hnow, htime⟩ := h.inTime (.inr (Bool.not_eq_false _ ▸ hcomplained))
  exact absurd htime (hlate now hnow).not_gt

end Excused

/-- **A parent that stops early has everything.** When the child writes whole
samples only and the parent has returned, the time was up at its last test, or a
read has failed, or the child has ended and all that it wrote is stored. -/
theorem returned_because {scene : Scene} {now : ℤ} {acts : List Act} {w : World}
    (hexec : exec (step scene) (forked now) acts = some w)
    (hacts : ∀ act ∈ acts, WholeSamples scene act) (hparent : w.parent = .returned) :
    (∃ now, w.readings.getLast? = some now ∧ scene.timeout ≤ ((now - w.start : ℤ) : ℚ)) ∨
      w.grants.getLast? = some .error ∨
      w.child = .ended ∧ w.written.length = sampleSize * w.capture.dataLen ∧
        w.capture.radioData.take (sampleSize * w.capture.dataLen) = w.written.map some := by
  have hbecause := (excused_of_exec hexec).because hparent
  unfold Because at hbecause
  split at hbecause
  next =>
    obtain herror | ⟨hchild, hpipe⟩ := hbecause
    · exact .inr (.inl herror)
    · have hfault : ∀ fault, w.parent ≠ .faulted fault := by
        intro fault h
        cases hparent.symm.trans h
      obtain ⟨hrest, hle, hsamples⟩ :=
        (whole_of_exec hexec hacts).stored ((simulated_of_exec hexec).captured hfault)
      have hall : w.written.length = sampleSize * w.capture.dataLen := by
        rw [hpipe] at hrest
        have hdrop := List.drop_eq_nil_iff.mp hrest.symm
        omega
      refine .inr (.inr ⟨hchild, hall, ?_⟩)
      rw [hsamples, ← hall, List.take_length]
  next => exact .inl hbecause

/-- The whole sample of a child that has ended. -/
theorem returned_because_ended :
    let w := worldAfter [.child, .child, .child, .write [1, 2], .ends, .parent, .parent, .parent,
      .parent, .parent, .parent]
    (∃ now, w.readings.getLast? = some now ∧ shortScene.timeout ≤ ((now - w.start : ℤ) : ℚ)) ∨
      w.grants.getLast? = some .error ∨
      w.child = .ended ∧ w.written.length = sampleSize * w.capture.dataLen ∧
        w.capture.radioData.take (sampleSize * w.capture.dataLen) = w.written.map some := by
  refine returned_because (exec_worldAfter (by decide +kernel)) ?_ (by decide +kernel)
  simp [WholeSamples, sampleSize]

/-! ### A child that never becomes `rtl_fm` -/

/-- Only a child behind a failed `execvp` has written, and only what it has
inherited. -/
def Inherited (scene : Scene) (w : World) : Prop :=
  w.written = [] ∨ w.written = scene.unflushed ∧ (w.child = .exiting ∨ w.child = .ended)

section Inherited

variable {scene : Scene} {w w' : World}

theorem Inherited.step (h : Inherited scene w) {act : Act} (hact : ∀ bytes, act ≠ .write bytes)
    (hstep : step scene w act = some w') : Inherited scene w' := by
  obtain ⟨-, hmove⟩ | ⟨-, -, rfl⟩ | ⟨hchild, child, hact', rfl⟩ |
    ⟨-, bytes, child, hbytes, rfl⟩ | ⟨now, -, rfl⟩ := step_cases hstep
  · rw [Inherited, (frame_of_parentStep hmove).1, (frame_of_parentStep hmove).2]
    exact h
  · exact h
  · obtain hnone | ⟨hwritten, hexiting | hended⟩ := h
    · exact .inl hnone
    · -- What exits can only end.
      refine .inr ⟨hwritten, .inr ?_⟩
      obtain rfl | rfl := hact'
      · rw [RadioChatter.Radio.step, childStep, hexiting] at hstep
        cases hstep
      · exact (congrArg World.child (Option.some.inj
          (Option.ite_none_left_eq_some.mp hstep).2)).symm
    · exact absurd hended hchild
  · obtain rfl | ⟨rfl, rfl⟩ := hbytes
    · exact absurd rfl (hact bytes)
    · obtain ⟨⟨hredirected, -⟩, heq⟩ := Option.ite_none_right_eq_some.mp hstep
      obtain hnone | ⟨-, hexiting | hended⟩ := h
      · refine .inr ⟨?_, .inl (congrArg World.child (Option.some.inj heq)).symm⟩
        show w.written ++ scene.unflushed = scene.unflushed
        rw [hnone, List.nil_append]
      · cases hredirected.symm.trans hexiting
      · cases hredirected.symm.trans hended
  · exact h

theorem inherited_of_acts {now : ℤ} {acts : List Act}
    (hexec : exec (RadioChatter.Radio.step scene) (forked now) acts = some w)
    (hacts : ∀ bytes, .write bytes ∉ acts) : Inherited scene w := by
  refine exec_invariant (Inherited scene) (fun act => ∀ bytes, act ≠ .write bytes) ?_
    (.inl rfl) ?_ hexec
  · intro s act s' hs hact hstep
    exact hs.step hact hstep
  · rintro act hact bytes rfl
    exact hacts bytes hact

/-- Each sample has used up a byte. -/
theorem Captured.dataLen_le {kernel : Kernel} {timeout : ℚ} {stream : List UInt8} {s : Capture}
    (h : Captured kernel timeout stream s) : s.dataLen ≤ stream.length := by
  have hle : ∀ n ≤ s.dataLen, n + (pipeAt kernel stream n).length ≤ stream.length := by
    intro n hn
    induction n with
    | zero => exact (Nat.zero_add _).le
    | succ n ih =>
        have hpos := List.length_pos_iff.mpr (h.past n hn).2
        have htake := congrArg List.length (bytesAt_eq_take kernel stream n)
        rw [List.length_take] at htake
        have hbefore := ih (by omega)
        rw [pipeAt_succ, List.length_drop]
        omega
  have hall := hle s.dataLen (le_refl _)
  omega

/-- What the parent counts is no more than what was in the buffer. -/
theorem Inherited.dataLen_le {now : ℤ} {acts : List Act} (h : Inherited scene w)
    (hexec : exec (RadioChatter.Radio.step scene) (forked now) acts = some w)
    (hfault : ∀ fault, w.parent ≠ .faulted fault) :
    w.capture.dataLen ≤ scene.unflushed.length := by
  have hle := ((simulated_of_exec hexec).captured hfault).dataLen_le
  obtain hnone | ⟨htext, -⟩ := h
  · rw [hnone] at hle
    exact hle.trans (Nat.zero_le _)
  · rw [htext] at hle
    exact hle

end Inherited

/-- **A child that never becomes `rtl_fm`** leaves nothing but the text that it
has inherited in the buffer of `stdout`, which the parent takes for samples; on a
terminal there is none. -/
theorem inherited_of_exec {scene : Scene} {now : ℤ} {acts : List Act} {w : World}
    (hexec : exec (step scene) (forked now) acts = some w)
    (hacts : ∀ bytes, .write bytes ∉ acts) :
    (w.written = [] ∨ w.written = scene.unflushed) ∧
      ((∀ fault, w.parent ≠ .faulted fault) → w.capture.dataLen ≤ scene.unflushed.length) := by
  have hinherited := inherited_of_acts hexec hacts
  exact ⟨hinherited.imp id And.left, hinherited.dataLen_le hexec⟩

/-- The `execvp` fails while five letters are in the buffer. -/
theorem inherited_of_exec_found :
    ∃ w, exec (step { shortScene with unflushed := [70, 111, 117, 110, 100] }) (forked 0)
        [.child, .child, .execFails, .ends] = some w ∧
      (w.written = [] ∨ w.written = [70, 111, 117, 110, 100]) ∧
      ((∀ fault, w.parent ≠ .faulted fault) → w.capture.dataLen ≤ 5) := by
  have hexec : exec (step { shortScene with unflushed := [70, 111, 117, 110, 100] }) (forked 0)
      [.child, .child, .execFails, .ends] =
    some { (forked 0).deliver [70, 111, 117, 110, 100] with child := .ended } := by decide +kernel
  exact ⟨_, hexec, inherited_of_exec hexec (by simp)⟩

/-! ### When the parent can go on -/

/-- How many actions of its own the parent still has, once nobody writes. -/
def World.due (w : World) : ℕ :=
  match w.parent with
  | .forked => 2 * w.capture.pipe.length + 4
  | .starting => 2 * w.capture.pipe.length + 3
  | .testing => 2 * w.capture.pipe.length + 2
  | .reading => 2 * w.capture.pipe.length + 1
  | .returned | .faulted _ => 0

section Due

variable {timeout : ℚ} {w w' : World}

theorem World.due_le (w : World) : w.due ≤ 2 * w.capture.pipe.length + 4 := by
  unfold due
  split <;> omega

theorem due_test (hparent : w.parent = .testing) : (test timeout w).due < w.due := by
  rw [World.due.eq_def w, hparent]
  obtain ⟨-, heq⟩ | ⟨-, fault, -, heq⟩ | ⟨-, capture, hresize, heq⟩ := test_cases timeout w
  · rw [heq]
    exact Nat.succ_pos _
  · rw [heq]
    exact Nat.succ_pos _
  · rw [heq]
    dsimp only [World.due]
    rw [pipe_of_resize hresize]
    exact Nat.lt_succ_self _

theorem due_read (hparent : w.parent = .reading) (hread : read w = some w') : w'.due < w.due := by
  rw [World.due.eq_def w, hparent]
  obtain ⟨-, -, rfl⟩ | ⟨-, fault, -, rfl⟩ | ⟨hpipe, capture, hstore, rfl⟩ := read_cases hread
  · exact Nat.succ_pos _
  · exact Nat.succ_pos _
  · have hpos : 0 < w.capture.pipe.length := List.length_pos_iff.mpr hpipe
    dsimp only [World.due]
    rw [pipe_of_store hstore, List.length_drop, List.length_take, sampleSize]
    omega

theorem due_parentStep (hstep : parentStep timeout w = some w') : w'.due < w.due := by
  obtain ⟨hparent, rfl⟩ | ⟨hparent, rfl⟩ | ⟨hparent, rfl⟩ | ⟨hparent, hread⟩ :=
    parentStep_cases hstep
  · rw [World.due.eq_def w, hparent]
    exact Nat.lt_succ_self _
  · rw [World.due.eq_def w, hparent]
    exact Nat.lt_succ_self _
  · exact due_test hparent
  · exact due_read hparent hread

/-- Without a child the parent never waits. -/
theorem parentStep_isSome (hchild : w.child = .ended) (houtcome : w.outcome = none) :
    (parentStep timeout w).isSome := by
  unfold World.outcome at houtcome
  unfold parentStep
  cases hparent : w.parent with
  | reading => exact (read_isSome_iff hparent).mpr (.inl hchild)
  | returned =>
      rw [hparent] at houtcome
      cases houtcome
  | faulted fault =>
      rw [hparent] at houtcome
      cases houtcome
  | _ => rfl

end Due

/-- **A child that has ended lets the parent go.** From then on no schedule holds
more actions of the parent than the bytes in the pipe pay for, and none leaves it
waiting, whatever the clock shows. -/
theorem released_when_child_ended {scene : Scene} {w w' : World} {acts : List Act}
    (hchild : w.child = .ended) (hexec : exec (step scene) w acts = some w') :
    acts.countP (· = .parent) ≤ 2 * w.capture.pipe.length + 4 ∧
      (w'.outcome = none → (step scene w' .parent).isSome) := by
  have hstep : ∀ s act s', s.child = .ended → step scene s act = some s' →
      s'.child = .ended ∧ s'.due + (decide (act = .parent)).toNat ≤ s.due := by
    intro s act s' hs hact
    obtain ⟨rfl, hmove⟩ | ⟨rfl, hparent, rfl⟩ | ⟨hne, -⟩ | ⟨hne, -⟩ | ⟨now, rfl, rfl⟩ :=
      step_cases hact
    · exact ⟨(frame_of_parentStep hmove).1.trans hs, due_parentStep hmove⟩
    · exact ⟨hs, Nat.zero_le _⟩
    · exact absurd hs hne
    · exact absurd hs hne
    · exact ⟨hs, Nat.le_refl _⟩
  have hcount := exec_count_le (fun w => w.child = .ended) (fun act => decide (act = .parent))
    World.due hstep hchild hexec
  refine ⟨?_, ?_⟩
  · have hdue := w.due_le
    omega
  · intro houtcome
    refine parentStep_isSome ?_ houtcome
    exact exec_invariant (fun w => w.child = .ended) (fun _ => True)
      (fun s act s' hs _ hact => (hstep s act s' hs hact).1) hchild (fun _ _ => trivial) hexec

/-- The child ends with a sample in the pipe, before the parent has begun. -/
def leftBehind : List Act := [.child, .child, .child, .write [1, 2], .ends]

/-- The parent takes it, and the time is up. -/
def taken : List Act := [.parent, .parent, .parent, .parent, .clock 9, .parent]

theorem released_when_child_ended_taken :
    taken.countP (· = .parent) ≤ 2 * (worldAfter leftBehind).capture.pipe.length + 4 ∧
      ((worldAfter (leftBehind ++ taken)).outcome = none →
        (step shortScene (worldAfter (leftBehind ++ taken)) .parent).isSome) := by
  refine released_when_child_ended (by decide +kernel) ?_
  decide +kernel

/-- While the parent waits, what is written stays in the pipe. -/
theorem waiting_of_exec {scene : Scene} {w w' : World} {acts : List Act}
    (hparent : w.parent = .reading) (hpipe : w.capture.pipe = [])
    (hacts : ∀ act ∈ acts, act ≠ .parent ∧ act ≠ .readFails)
    (hexec : exec (step scene) w acts = some w') :
    w'.parent = .reading ∧ w'.written = w.written ++ w'.capture.pipe := by
  refine exec_invariant
    (fun s => s.parent = .reading ∧ s.written = w.written ++ s.capture.pipe)
    (fun act => act ≠ .parent ∧ act ≠ .readFails) ?_ ?_ hacts hexec
  · rintro s act s' ⟨hs, hwritten⟩ ⟨hnot, hnot'⟩ hstep
    obtain ⟨rfl, -⟩ | ⟨rfl, -⟩ | ⟨-, child, -, rfl⟩ | ⟨-, bytes, child, -, rfl⟩ | ⟨now, -, rfl⟩ :=
      step_cases hstep
    · exact absurd rfl hnot
    · exact absurd rfl hnot'
    · exact ⟨hs, hwritten⟩
    · refine ⟨hs, ?_⟩
      show s.written ++ bytes = w.written ++ (s.capture.pipe ++ bytes)
      rw [hwritten, List.append_assoc]
    · exact ⟨hs, hwritten⟩
  · exact ⟨hparent, by rw [hpipe, List.append_nil]⟩

/-- **A silent child keeps the parent waiting.** Where the parent waits in `read`,
its next action becomes possible once a byte is written or the child has ended,
and not before, however far the clock goes. -/
theorem waits_for_child {scene : Scene} {w w' : World} {acts : List Act}
    (hparent : w.parent = .reading) (hpipe : w.capture.pipe = [])
    (hacts : ∀ act ∈ acts, act ≠ .parent ∧ act ≠ .readFails)
    (hexec : exec (step scene) w acts = some w') :
    (step scene w' .parent).isSome ↔ w'.child = .ended ∨ w'.written ≠ w.written := by
  obtain ⟨hreading, hwritten⟩ := waiting_of_exec hparent hpipe hacts hexec
  have hmove : step scene w' .parent = read w' := by
    rw [step, parentStep, hreading]
  rw [hmove, read_isSome_iff hreading, hwritten, ne_eq, ne_eq, List.append_right_eq_self]

/-- The parent waits for a child that runs. -/
def waiting : List Act := [.child, .child, .child, .parent, .parent, .parent]

/-- The clock does not wake it, a byte does. -/
theorem waits_for_child_clock_byte :
    ((step shortScene (worldAfter (waiting ++ [.clock 9])) .parent).isSome ↔
      (worldAfter (waiting ++ [.clock 9])).child = .ended ∨
        (worldAfter (waiting ++ [.clock 9])).written ≠ (worldAfter waiting).written) ∧
    ((step shortScene (worldAfter (waiting ++ [.write [7]])) .parent).isSome ↔
      (worldAfter (waiting ++ [.write [7]])).child = .ended ∨
        (worldAfter (waiting ++ [.write [7]])).written ≠ (worldAfter waiting).written) := by
  have hparent : (worldAfter waiting).parent = .reading := by decide +kernel
  have hpipe : (worldAfter waiting).capture.pipe = [] := by decide +kernel
  have hclock : exec (step shortScene) (worldAfter waiting) [.clock 9] =
      some (worldAfter (waiting ++ [.clock 9])) := by decide +kernel
  have hbyte : exec (step shortScene) (worldAfter waiting) [.write [7]] =
      some (worldAfter (waiting ++ [.write [7]])) := by decide +kernel
  exact ⟨waits_for_child hparent hpipe (by simp) hclock,
    waits_for_child hparent hpipe (by simp) hbyte⟩

end RadioChatter.Radio
