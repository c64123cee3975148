import RadioChatter.Lib.Schedule
import RadioChatter.Radio.Capture

/-!
The two processes of `radio_scan_single_freq` and the pipe between them.

The child becomes `rtl_fm` and writes when it likes; the parent runs
`consume_radio_output`, whose loop is cut where it waits: at the reading of the
clock and in the call `read`. Between any two actions of one process the other
may make any number of its own, the clock may be set to any time, and the child
may come to its end.

The capture of `Radio.Capture` sees a stream that is there from the beginning.
It is the abstract side here: whatever the order of the actions, the parent ends
as that capture ends on all that was written, with the reads and the clock
readings of the run.
-/

namespace RadioChatter.Radio

open Checked Schedule

/-- Where the parent stands. -/
inductive Parent
  /-- behind `fork`, with both ends of the pipe -/
  | forked
  /-- at the head of `consume_radio_output` -/
  | starting
  /-- at the test of the loop -/
  | testing
  /-- in the call `read` -/
  | reading
  | returned
  | faulted (fault : Fault)
  deriving DecidableEq, Repr

/-- Where the child stands. -/
inductive Child
  | forked
  /-- `stderr` is reopened and the read end is closed -/
  | readEndClosed
  /-- `stdout` is the write end of the pipe -/
  | redirected
  | rtlFm
  /-- behind the `exit` that follows a failed `execvp` -/
  | exiting
  | ended
  deriving DecidableEq, Repr

/-- What does not change during a scan: `unflushed` is what the buffer of
`stdout` holds at the `fork`, nothing on a terminal. -/
structure Scene where
  timeout : ℚ
  capacity : ℕ
  unflushed : List UInt8

/-- Both processes and the pipe, whose bytes are in `capture.pipe`. All that was
written to the pipe, how the reads were served, what the clock showed at the
tests and whether `perror` was called is kept for the record. -/
structure World where
  parent : Parent
  child : Child
  capture : Capture
  now : ℤ
  start : ℤ
  written : List UInt8
  grants : List Grant
  readings : List ℤ
  complained : Bool
  deriving DecidableEq, Repr

inductive Act
  /-- the next thing that the parent does -/
  | parent
  /-- a `read` of the parent that fails -/
  | readFails
  /-- the next thing that the child does, up to a successful `execvp` -/
  | child
  | execFails
  /-- `rtl_fm` writes -/
  | write (bytes : List UInt8)
  /-- the child exits or is killed -/
  | ends
  | clock (now : ℤ)
  deriving DecidableEq, Repr

/-- The world right after `fork`. -/
def forked (now : ℤ) : World where
  parent := .forked
  child := .forked
  capture := newCapture []
  now := now
  start := 0
  written := []
  grants := []
  readings := []
  complained := false

/-- The write ends that the child holds. -/
def Child.writeEnds : Child → ℕ
  | .forked | .readEndClosed => 1
  | .redirected | .rtlFm | .exiting => 2
  | .ended => 0

/-- All open write ends of the pipe. -/
def World.writeEnds (w : World) : ℕ :=
  (if w.parent = .forked then 1 else 0) + w.child.writeEnds

/-- Bytes reach the pipe. -/
def World.deliver (w : World) (bytes : List UInt8) : World :=
  { w with
    capture := { w.capture with pipe := w.capture.pipe ++ bytes }
    written := w.written ++ bytes }

/-- The test of the loop, with the resize behind it. The time is compared without
rounding, as in `Radio.Capture`. -/
def test (timeout : ℚ) (w : World) : World :=
  let w := { w with readings := w.readings ++ [w.now] }
  if ((w.now - w.start : ℤ) : ℚ) < timeout then
    match resize w.capture with
    | .error fault => { w with parent := .faulted fault }
    | .ok capture => { w with parent := .reading, capture := capture }
  else { w with parent := .returned }

/-- How a read of a pipe that holds bytes is served. -/
def served (bytes : List UInt8) : Grant := if bytes.length = 1 then .one else .two

/-- The call `read`, which waits while the pipe is empty and open for writing. -/
def read (w : World) : Option World :=
  if w.capture.pipe = [] then
    if w.writeEnds = 0 then
      some { w with parent := .returned, grants := w.grants ++ [.two], complained := true }
    else none
  else
    let bytes := w.capture.pipe.take sampleSize
    let w := { w with grants := w.grants ++ [served bytes] }
    match store w.capture bytes with
    | .error fault => some { w with parent := .faulted fault }
    | .ok capture => some { w with parent := .testing, capture := capture }

def parentStep (timeout : ℚ) (w : World) : Option World :=
  match w.parent with
  | .forked => some { w with parent := .starting }
  | .starting => some { w with parent := .testing, start := w.now }
  | .testing => some (test timeout w)
  | .reading => read w
  | .returned | .faulted _ => none

def childStep (w : World) : Option World :=
  match w.child with
  | .forked => some { w with child := .readEndClosed }
  | .readEndClosed => some { w with child := .redirected }
  | .redirected => some { w with child := .rtlFm }
  | .rtlFm | .exiting | .ended => none

/-- What an action does, or `none` where it cannot happen. The `exit` behind a
failed `execvp` flushes the buffer that the child has inherited. -/
def step (scene : Scene) (w : World) : Act → Option World
  | .parent => parentStep scene.timeout w
  | .readFails =>
      if w.parent = .reading then
        some { w with parent := .returned, grants := w.grants ++ [.error], complained := true }
      else none
  | .child => childStep w
  | .execFails =>
      if w.child = .redirected ∧
          w.capture.pipe.length + scene.unflushed.length ≤ scene.capacity then
        some { w.deliver scene.unflushed with child := .exiting }
      else none
  | .write bytes =>
      if w.child = .rtlFm ∧ bytes ≠ [] ∧
          w.capture.pipe.length + bytes.length ≤ scene.capacity then
        some (w.deliver bytes)
      else none
  | .ends => if w.child = .ended then none else some { w with child := .ended }
  | .clock now => some { w with now := now }

/-- How the capture ended, if it has. -/
def World.outcome (w : World) : Option (Except Fault (ℕ × List (Option UInt8))) :=
  match w.parent with
  | .returned => some (.ok (w.capture.dataLen, w.capture.radioData))
  | .faulted fault => some (.error fault)
  | _ => none

/-- The surroundings that the capture has met. -/
def World.kernel (w : World) : Kernel where
  grant n := w.grants.getD n .two
  clock n := (w.start :: w.readings).getD n 0

/-- Without a write end there is no child. -/
theorem World.child_ended_of_writeEnds (w : World) (h : w.writeEnds = 0) : w.child = .ended := by
  cases hchild : w.child with
  | ended => rfl
  | _ => simp [writeEnds, hchild, Child.writeEnds] at h

/-- What the test comes to: the time is up, or the buffer cannot grow, or the parent
is about to read. -/
theorem test_cases (timeout : ℚ) (w : World) :
    (timeout ≤ ((w.now - w.start : ℤ) : ℚ) ∧
      test timeout w = { w with parent := .returned, readings := w.readings ++ [w.now] }) ∨
    (((w.now - w.start : ℤ) : ℚ) < timeout ∧ ∃ fault, resize w.capture = .error fault ∧
      test timeout w =
        { w with parent := .faulted fault, readings := w.readings ++ [w.now] }) ∨
    (((w.now - w.start : ℤ) : ℚ) < timeout ∧ ∃ capture, resize w.capture = .ok capture ∧
      test timeout w =
        { w with parent := .reading, capture := capture, readings := w.readings ++ [w.now] }) := by
  unfold test
  dsimp only
  split
  next htime =>
    cases resize w.capture with
    | error fault => exact .inr (.inl ⟨htime, fault, rfl, rfl⟩)
    | ok capture => exact .inr (.inr ⟨htime, capture, rfl, rfl⟩)
  next htime => exact .inl ⟨not_lt.mp htime, rfl⟩

/-- What a read comes to: the stream is at its end, or what it delivers does not fit
in the buffer, or it is stored. -/
theorem read_cases {w w' : World} (h : read w = some w') :
    (w.capture.pipe = [] ∧ w.child = .ended ∧
      w' = { w with
        parent := .returned
        grants := w.grants ++ [.two]
        complained := true }) ∨
    (w.capture.pipe ≠ [] ∧ ∃ fault,
      store w.capture (w.capture.pipe.take sampleSize) = .error fault ∧
      w' = { w with
        parent := .faulted fault
        grants := w.grants ++ [served (w.capture.pipe.take sampleSize)] }) ∨
    (w.capture.pipe ≠ [] ∧ ∃ capture,
      store w.capture (w.capture.pipe.take sampleSize) = .ok capture ∧
      w' = { w with
        parent := .testing
        capture := capture
        grants := w.grants ++ [served (w.capture.pipe.take sampleSize)] }) := by
  unfold read at h
  split at h
  next hpipe =>
    obtain ⟨hends, heq⟩ := Option.ite_none_right_eq_some.mp h
    exact .inl ⟨hpipe, w.child_ended_of_writeEnds hends, (Option.some.inj heq).symm⟩
  next hpipe =>
    dsimp only at h
    split at h
    next fault hstore => exact .inr (.inl ⟨hpipe, fault, hstore, (Option.some.inj h).symm⟩)
    next capture hstore => exact .inr (.inr ⟨hpipe, capture, hstore, (Option.some.inj h).symm⟩)

/-- A read waits while the child lives and the pipe is empty, and only then. -/
theorem read_isSome_iff {w : World} (hparent : w.parent = .reading) :
    (read w).isSome ↔ w.child = .ended ∨ w.capture.pipe ≠ [] := by
  constructor
  · intro h
    obtain ⟨w', hread⟩ := Option.isSome_iff_exists.mp h
    obtain ⟨-, hchild, -⟩ | ⟨hpipe, -⟩ | ⟨hpipe, -⟩ := read_cases hread
    · exact .inl hchild
    · exact .inr hpipe
    · exact .inr hpipe
  · intro h
    unfold read
    split
    next hpipe =>
      have hends : w.writeEnds = 0 := by
        rw [World.writeEnds, hparent, h.resolve_right (not_not.mpr hpipe)]
        rfl
      rw [if_pos hends]
      rfl
    next =>
      dsimp only
      cases store w.capture (w.capture.pipe.take sampleSize) with
      | error fault => rfl
      | ok capture => rfl

/-- What the parent can do of its own. -/
theorem parentStep_cases {timeout : ℚ} {w w' : World} (h : parentStep timeout w = some w') :
    (w.parent = .forked ∧ w' = { w with parent := .starting }) ∨
    (w.parent = .starting ∧ w' = { w with parent := .testing, start := w.now }) ∨
    (w.parent = .testing ∧ w' = test timeout w) ∨
    (w.parent = .reading ∧ read w = some w') := by
  unfold parentStep at h
  split at h
  next hparent => exact .inl ⟨hparent, (Option.some.inj h).symm⟩
  next hparent => exact .inr (.inl ⟨hparent, (Option.some.inj h).symm⟩)
  next hparent => exact .inr (.inr (.inl ⟨hparent, (Option.some.inj h).symm⟩))
  next hparent => exact .inr (.inr (.inr ⟨hparent, h⟩))
  next => cases h
  next => cases h

/-- The parent neither moves the child nor writes. -/
theorem frame_of_parentStep {timeout : ℚ} {w w' : World} (h : parentStep timeout w = some w') :
    w'.child = w.child ∧ w'.written = w.written := by
  obtain ⟨-, rfl⟩ | ⟨-, rfl⟩ | ⟨-, rfl⟩ | ⟨-, hread⟩ := parentStep_cases h
  · exact ⟨rfl, rfl⟩
  · exact ⟨rfl, rfl⟩
  · obtain ⟨-, heq⟩ | ⟨-, fault, -, heq⟩ | ⟨-, capture, -, heq⟩ := test_cases timeout w
    all_goals
      rw [heq]
      exact ⟨rfl, rfl⟩
  · obtain ⟨-, -, rfl⟩ | ⟨-, fault, -, rfl⟩ | ⟨-, capture, -, rfl⟩ := read_cases hread
    all_goals exact ⟨rfl, rfl⟩

/-- What an action can do: the parent goes on, or its read fails, or the child
moves without or with bytes for the pipe, or the clock is set. -/
theorem step_cases {scene : Scene} {w w' : World} {act : Act} (h : step scene w act = some w') :
    (act = .parent ∧ parentStep scene.timeout w = some w') ∨
    (act = .readFails ∧ w.parent = .reading ∧
      w' = { w with
        parent := .returned
        grants := w.grants ++ [.error]
        complained := true }) ∨
    (w.child ≠ .ended ∧ ∃ child, (act = .child ∨ act = .ends) ∧ w' = { w with child := child }) ∨
    (w.child ≠ .ended ∧ ∃ bytes child,
      (act = .write bytes ∨ act = .execFails ∧ bytes = scene.unflushed) ∧
      w' = { w.deliver bytes with child := child }) ∨
    ∃ now, act = .clock now ∧ w' = { w with now := now } := by
  cases act with
  | parent => exact .inl ⟨rfl, h⟩
  | readFails =>
      obtain ⟨hparent, heq⟩ := Option.ite_none_right_eq_some.mp h
      exact .inr (.inl ⟨rfl, hparent, (Option.some.inj heq).symm⟩)
  | child =>
      refine .inr (.inr (.inl ?_))
      rw [step, childStep] at h
      cases hchild : w.child with
      | forked =>
          rw [hchild] at h
          exact ⟨by simp, _, .inl rfl, (Option.some.inj h).symm⟩
      | readEndClosed =>
          rw [hchild] at h
          exact ⟨by simp, _, .inl rfl, (Option.some.inj h).symm⟩
      | redirected =>
          rw [hchild] at h
          exact ⟨by simp, _, .inl rfl, (Option.some.inj h).symm⟩
      | _ =>
          rw [hchild] at h
          cases h
  | execFails =>
      obtain ⟨⟨hchild, -⟩, heq⟩ := Option.ite_none_right_eq_some.mp h
      refine .inr (.inr (.inr (.inl ⟨by simp [hchild], scene.unflushed, .exiting, ?_⟩)))
      exact ⟨.inr ⟨rfl, rfl⟩, (Option.some.inj heq).symm⟩
  | write bytes =>
      obtain ⟨⟨hchild, -⟩, heq⟩ := Option.ite_none_right_eq_some.mp h
      refine .inr (.inr (.inr (.inl ⟨by simp [hchild], bytes, w.child, ?_⟩)))
      exact ⟨.inl rfl, (Option.some.inj heq).symm⟩
  | ends =>
      obtain ⟨hchild, heq⟩ := Option.ite_none_left_eq_some.mp h
      exact .inr (.inr (.inl ⟨hchild, .ended, .inr rfl, (Option.some.inj heq).symm⟩))
  | clock now => exact .inr (.inr (.inr (.inr ⟨now, rfl, (Option.some.inj h).symm⟩)))

/-! ### A capture whose stream goes on -/

/-- The same capture when more bytes are to come. -/
def Capture.extend (c : Capture) (more : List UInt8) : Capture :=
  { c with pipe := c.pipe ++ more }

@[simp] theorem resize_extend (c : Capture) (more : List UInt8) :
    resize (c.extend more) = (resize c).map (·.extend more) := by
  unfold resize Capture.extend
  dsimp only
  split
  · split
    · rfl
    · rfl
  · rfl

theorem store_extend {c : Capture} {bytes : List UInt8} (more : List UInt8)
    (h : bytes.length ≤ c.pipe.length) :
    store (c.extend more) bytes = (store c bytes).map (·.extend more) := by
  unfold store Capture.extend
  dsimp only
  cases blit c.radioData (sampleSize * c.dataLen) (bytes.map some) with
  | error fault => rfl
  | ok radioData =>
      rw [List.drop_append_of_le_length h]
      rfl

/-- A read that delivers what the pipe held delivers the same when more follows. -/
theorem served_read {pipe : List UInt8} (h : pipe ≠ []) (more : List UInt8) :
    (served (pipe.take sampleSize)).read (pipe ++ more) = some (pipe.take sampleSize) := by
  have hpos : 0 < pipe.length := List.length_pos_iff.mpr h
  unfold served
  rw [List.length_take, sampleSize]
  split
  next hone =>
    have hlength : pipe.length = 1 := by omega
    rw [Grant.read, List.take_append_of_le_length (by omega), List.take_of_length_le (by omega),
      List.take_of_length_le (by omega)]
  next hone =>
    rw [Grant.read, List.take_append_of_le_length (by omega)]

/-- An iteration in time, from the read on. -/
theorem consumeBody_of_resize {kernel : Kernel} {timeout : ℚ} {c₀ c : Capture}
    (htime : ((kernel.clock (c₀.reads + 1) - kernel.clock 0 : ℤ) : ℚ) < timeout)
    (hresize : resize c₀ = .ok c) :
    consumeBody kernel timeout c₀ =
      if readResult ((kernel.grant c.reads).read c.pipe) ≤ 0 then .inr (.ok c)
      else
        match store c (((kernel.grant c.reads).read c.pipe).getD []) with
        | .error fault => .inr (.error fault)
        | .ok s => .inl s := by
  rw [consumeBody, if_pos htime]
  generalize resize c₀ = r at hresize
  subst hresize
  rfl

theorem reads_of_resize {c₀ c : Capture} (h : resize c₀ = .ok c) : c.reads = c₀.reads := by
  unfold resize at h
  split at h
  · split at h
    · cases h
      rfl
    · cases h
  · cases h
    rfl

theorem reads_of_store {c₀ c : Capture} {bytes : List UInt8} (h : store c₀ bytes = .ok c) :
    c.reads = c₀.reads + 1 := by
  unfold store at h
  cases hblit : blit c₀.radioData (sampleSize * c₀.dataLen) (bytes.map some) with
  | error fault =>
      rw [hblit] at h
      cases h
  | ok radioData =>
      rw [hblit] at h
      cases h
      rfl

/-! ### Every interleaving is a capture of what was written -/

/-- The surroundings `kernel` continue what the run has met. -/
structure World.Agrees (w : World) (kernel : Kernel) : Prop where
  start : kernel.clock 0 = w.start
  readings : ∀ n x, w.readings[n]? = some x → kernel.clock (n + 1) = x
  grants : ∀ n g, w.grants[n]? = some g → kernel.grant n = g

theorem World.agrees_kernel (w : World) : w.Agrees w.kernel where
  start := rfl
  readings := by
    intro n x hx
    show (w.start :: w.readings).getD (n + 1) 0 = x
    rw [List.getD_cons_succ, List.getD_eq_getElem?_getD, hx, Option.getD_some]
  grants := by
    intro n g hg
    show w.grants.getD n .two = g
    rw [List.getD_eq_getElem?_getD, hg, Option.getD_some]

theorem World.Agrees.grant_append {w : World} {kernel : Kernel} {g : Grant} {parent : Parent}
    {capture : Capture} {complained : Bool}
    (h : { w with parent, capture, grants := w.grants ++ [g], complained : World }.Agrees kernel) :
    w.Agrees kernel ∧ kernel.grant w.grants.length = g := by
  refine ⟨⟨h.start, h.readings, ?_⟩, h.grants _ _ List.getElem?_concat_length⟩
  intro n x hx
  refine h.grants n x ?_
  rw [List.getElem?_append_left (List.getElem?_eq_some_iff.mp hx).1, hx]

theorem World.Agrees.reading_append {w : World} {kernel : Kernel} {x : ℤ} {parent : Parent}
    {capture : Capture}
    (h : { w with parent, capture, readings := w.readings ++ [x] : World }.Agrees kernel) :
    w.Agrees kernel ∧ kernel.clock (w.readings.length + 1) = x := by
  refine ⟨⟨h.start, ?_, h.grants⟩, h.readings _ _ List.getElem?_concat_length⟩
  intro n y hy
  refine h.readings n y ?_
  rw [List.getElem?_append_left (List.getElem?_eq_some_iff.mp hy).1, hy]

/-- Where the parent stands in the capture of `stream`. -/
def Mirrors (kernel : Kernel) (timeout : ℚ) (stream : List UInt8) (c : Capture) : Parent → Prop
  | .forked | .starting => c = newCapture stream
  | .testing => BoundedLoop.Reachable (consumeBody kernel timeout) (newCapture stream) c
  | .reading => ∃ c₀, BoundedLoop.Reachable (consumeBody kernel timeout) (newCapture stream) c₀ ∧
      ((kernel.clock (c₀.reads + 1) - kernel.clock 0 : ℤ) : ℚ) < timeout ∧ resize c₀ = .ok c
  | .returned => ∃ c₀, BoundedLoop.Reachable (consumeBody kernel timeout) (newCapture stream) c₀ ∧
      consumeBody kernel timeout c₀ = .inr (.ok c)
  | .faulted fault =>
      ∃ c₀, BoundedLoop.Reachable (consumeBody kernel timeout) (newCapture stream) c₀ ∧
        consumeBody kernel timeout c₀ = .inr (.error fault)

/-- What holds of a scan at any time: it has gone the way of the capture of all
that is written, whatever the child may still write, and the reads and tests are
on record. -/
structure Simulated (timeout : ℚ) (w : World) : Prop where
  fresh : w.parent = .forked ∨ w.parent = .starting →
    w.capture = newCapture w.written ∧ w.grants = [] ∧ w.readings = []
  testing : w.parent = .testing →
    w.grants.length = w.capture.reads ∧ w.readings.length = w.capture.reads
  reading : w.parent = .reading →
    w.grants.length = w.capture.reads ∧ w.readings.length = w.capture.reads + 1
  mirrors : ∀ kernel more, w.Agrees kernel → (w.child = .ended → more = []) →
    Mirrors kernel timeout (w.written ++ more) (w.capture.extend more) w.parent

section Simulation

variable {timeout : ℚ} {w w' : World}

theorem simulated_forked (timeout : ℚ) (now : ℤ) : Simulated timeout (forked now) where
  fresh := by
    intro _
    exact ⟨rfl, rfl, rfl⟩
  testing := by
    intro h
    cases h
  reading := by
    intro h
    cases h
  mirrors := by
    intro kernel more _ _
    rfl

theorem Simulated.clock (h : Simulated timeout w) (now : ℤ) :
    Simulated timeout { w with now := now } where
  fresh := h.fresh
  testing := h.testing
  reading := h.reading
  mirrors := by
    intro kernel more hagrees hended
    exact h.mirrors kernel more ⟨hagrees.start, hagrees.readings, hagrees.grants⟩ hended

/-- A child that has not ended may become anything. -/
theorem Simulated.child (h : Simulated timeout w) (hchild : w.child ≠ .ended) (child : Child) :
    Simulated timeout { w with child := child } where
  fresh := h.fresh
  testing := h.testing
  reading := h.reading
  mirrors := by
    intro kernel more hagrees _
    exact h.mirrors kernel more ⟨hagrees.start, hagrees.readings, hagrees.grants⟩
      fun hended => absurd hended hchild

/-- What a living child writes was to come. -/
theorem Simulated.deliver (h : Simulated timeout w) (hchild : w.child ≠ .ended)
    (bytes : List UInt8) : Simulated timeout (w.deliver bytes) where
  fresh := by
    intro hparent
    obtain ⟨hcapture, hlogs⟩ := h.fresh hparent
    exact ⟨by rw [World.deliver, hcapture]; rfl, hlogs⟩
  testing := h.testing
  reading := h.reading
  mirrors := by
    intro kernel more hagrees _
    have hmirrors := h.mirrors kernel (bytes ++ more)
      ⟨hagrees.start, hagrees.readings, hagrees.grants⟩ fun hended => absurd hended hchild
    rw [Capture.extend, ← List.append_assoc, ← List.append_assoc] at hmirrors
    exact hmirrors

/-- Of a parent that is through with the loop there is only its capture to tell. -/
theorem Simulated.of_done (hdone : w.parent = .returned ∨ ∃ fault, w.parent = .faulted fault)
    (hmirrors : ∀ kernel more, w.Agrees kernel → (w.child = .ended → more = []) →
      Mirrors kernel timeout (w.written ++ more) (w.capture.extend more) w.parent) :
    Simulated timeout w := by
  obtain hdone | ⟨fault, hdone⟩ := hdone
  all_goals
    refine ⟨?_, ?_, ?_, hmirrors⟩
    · rw [hdone]
      rintro (h | h) <;> cases h
    · rw [hdone]
      intro h
      cases h
    · rw [hdone]
      intro h
      cases h

/-- At the test the parent is where the capture of the stream is. -/
theorem Simulated.reachable (h : Simulated timeout w) (hparent : w.parent = .testing)
    {kernel : Kernel} {more : List UInt8} (hagrees : w.Agrees kernel)
    (hended : w.child = .ended → more = []) :
    BoundedLoop.Reachable (consumeBody kernel timeout) (newCapture (w.written ++ more))
      (w.capture.extend more) := by
  have hmirrors := h.mirrors kernel more hagrees hended
  rw [hparent] at hmirrors
  exact hmirrors

/-- What the next reading of the clock says of the capture. -/
theorem Simulated.inTime_iff (h : Simulated timeout w) (hparent : w.parent = .testing)
    {kernel : Kernel} (hagrees : w.Agrees kernel)
    (hclock : kernel.clock (w.readings.length + 1) = w.now) :
    ((kernel.clock (w.capture.reads + 1) - kernel.clock 0 : ℤ) : ℚ) < timeout ↔
      ((w.now - w.start : ℤ) : ℚ) < timeout := by
  rw [← (h.testing hparent).2, hclock, hagrees.start]

/-- The test of the parent is the test of the capture. -/
theorem Simulated.test (h : Simulated timeout w) (hparent : w.parent = .testing) :
    Simulated timeout (test timeout w) := by
  obtain ⟨hgrants, hreadings⟩ := h.testing hparent
  obtain ⟨htime, heq⟩ | ⟨htime, fault, hresize, heq⟩ | ⟨htime, capture, hresize, heq⟩ :=
    test_cases timeout w
  · rw [heq]
    refine Simulated.of_done (.inl rfl) ?_
    intro kernel more hagrees hended
    obtain ⟨hw, hclock⟩ := hagrees.reading_append
    refine ⟨w.capture.extend more, h.reachable hparent hw hended, ?_⟩
    rw [consumeBody, if_neg]
    exact (h.inTime_iff hparent hw hclock).not.mpr (not_lt.mpr htime)
  · rw [heq]
    refine Simulated.of_done (.inr ⟨fault, rfl⟩) ?_
    intro kernel more hagrees hended
    obtain ⟨hw, hclock⟩ := hagrees.reading_append
    refine ⟨w.capture.extend more, h.reachable hparent hw hended, ?_⟩
    rw [consumeBody, if_pos, resize_extend, hresize]
    · rfl
    · exact (h.inTime_iff hparent hw hclock).mpr htime
  · rw [heq]
    have hreads := reads_of_resize hresize
    refine ⟨?_, ?_, ?_, ?_⟩
    · rintro (h | h) <;> cases h
    · intro h
      cases h
    · intro _
      refine ⟨by rw [hgrants, ← hreads], ?_⟩
      rw [List.length_append, List.length_singleton, hreadings, hreads]
    · intro kernel more hagrees hended
      obtain ⟨hw, hclock⟩ := hagrees.reading_append
      refine ⟨w.capture.extend more, h.reachable hparent hw hended,
        (h.inTime_iff hparent hw hclock).mpr htime, ?_⟩
      rw [resize_extend, hresize]
      rfl

/-- A read that is served with `g` makes the iteration of the capture, from the
read on. -/
theorem Simulated.iteration (h : Simulated timeout w) (hparent : w.parent = .reading)
    {kernel : Kernel} {more : List UInt8} {g : Grant} (hagrees : w.Agrees kernel)
    (hgrant : kernel.grant w.grants.length = g) (hended : w.child = .ended → more = []) :
    ∃ c₀, BoundedLoop.Reachable (consumeBody kernel timeout) (newCapture (w.written ++ more)) c₀ ∧
      consumeBody kernel timeout c₀ =
        if readResult (g.read (w.capture.pipe ++ more)) ≤ 0 then
          .inr (.ok (w.capture.extend more))
        else
          match store (w.capture.extend more) ((g.read (w.capture.pipe ++ more)).getD []) with
          | .error fault => .inr (.error fault)
          | .ok s => .inl s := by
  have hmirrors := h.mirrors kernel more hagrees hended
  rw [hparent] at hmirrors
  obtain ⟨c₀, hreach, htime, hresize⟩ := hmirrors
  refine ⟨c₀, hreach, ?_⟩
  have hreads : (w.capture.extend more).reads = w.grants.length := (h.reading hparent).1.symm
  rw [consumeBody_of_resize htime hresize, hreads, hgrant]
  rfl

theorem Simulated.readFails (h : Simulated timeout w) (hparent : w.parent = .reading) :
    Simulated timeout
      { w with parent := .returned, grants := w.grants ++ [.error], complained := true } := by
  refine Simulated.of_done (.inl rfl) ?_
  intro kernel more hagrees hended
  obtain ⟨hw, hgrant⟩ := hagrees.grant_append
  obtain ⟨c₀, hreach, hbody⟩ := h.iteration hparent hw hgrant hended
  exact ⟨c₀, hreach, hbody⟩

/-- The end of the stream: nobody can write any more, and the pipe is empty. -/
theorem Simulated.endOfStream (h : Simulated timeout w) (hparent : w.parent = .reading)
    (hpipe : w.capture.pipe = []) (hchild : w.child = .ended) :
    Simulated timeout
      { w with parent := .returned, grants := w.grants ++ [.two], complained := true } := by
  refine Simulated.of_done (.inl rfl) ?_
  intro kernel more hagrees hended
  obtain rfl := hended hchild
  obtain ⟨hw, hgrant⟩ := hagrees.grant_append
  obtain ⟨c₀, hreach, hbody⟩ := h.iteration hparent hw hgrant fun _ => rfl
  rw [hpipe] at hbody
  exact ⟨c₀, hreach, hbody⟩

/-- The iteration of a read that delivers what the pipe holds. -/
theorem Simulated.served (h : Simulated timeout w) (hparent : w.parent = .reading)
    (hpipe : w.capture.pipe ≠ []) {kernel : Kernel} {more : List UInt8} (hagrees : w.Agrees kernel)
    (hgrant : kernel.grant w.grants.length = served (w.capture.pipe.take sampleSize))
    (hended : w.child = .ended → more = []) :
    ∃ c₀, BoundedLoop.Reachable (consumeBody kernel timeout) (newCapture (w.written ++ more)) c₀ ∧
      consumeBody kernel timeout c₀ =
        match store w.capture (w.capture.pipe.take sampleSize) with
        | .error fault => .inr (.error fault)
        | .ok c => .inl (c.extend more) := by
  obtain ⟨c₀, hreach, hbody⟩ := h.iteration hparent hagrees hgrant hended
  have hpos : 0 < w.capture.pipe.length := List.length_pos_iff.mpr hpipe
  rw [served_read hpipe, if_neg, Option.getD_some, store_extend _ (List.length_take_le' _ _)]
    at hbody
  · refine ⟨c₀, hreach, hbody.trans ?_⟩
    cases store w.capture (w.capture.pipe.take sampleSize) with
    | error fault => rfl
    | ok c => rfl
  · rw [readResult, List.length_take, sampleSize]
    omega

/-- The read of the parent is the read of the capture. -/
theorem Simulated.read (h : Simulated timeout w) (hparent : w.parent = .reading)
    (hread : read w = some w') : Simulated timeout w' := by
  obtain ⟨hpipe, hchild, rfl⟩ | ⟨hpipe, fault, hstore, rfl⟩ | ⟨hpipe, c, hstore, rfl⟩ :=
    read_cases hread
  · exact h.endOfStream hparent hpipe hchild
  · refine Simulated.of_done (.inr ⟨fault, rfl⟩) ?_
    intro kernel more hagrees hended
    obtain ⟨hw, hgrant⟩ := hagrees.grant_append
    obtain ⟨c₀, hreach, hbody⟩ := h.served hparent hpipe hw hgrant hended
    rw [hstore] at hbody
    exact ⟨c₀, hreach, hbody⟩
  · obtain ⟨hgrants, hreadings⟩ := h.reading hparent
    have hreads := reads_of_store hstore
    refine ⟨?_, ?_, ?_, ?_⟩
    · rintro (h | h) <;> cases h
    · intro _
      refine ⟨?_, by rw [hreadings, hreads]⟩
      rw [List.length_append, List.length_singleton, hgrants, hreads]
    · intro h
      cases h
    · intro kernel more hagrees hended
      obtain ⟨hw, hgrant⟩ := hagrees.grant_append
      obtain ⟨c₀, hreach, hbody⟩ := h.served hparent hpipe hw hgrant hended
      rw [hstore] at hbody
      exact hreach.tail hbody

theorem Simulated.parentStep (h : Simulated timeout w) (hstep : parentStep timeout w = some w') :
    Simulated timeout w' := by
  obtain ⟨hparent, rfl⟩ | ⟨hparent, rfl⟩ | ⟨hparent, rfl⟩ | ⟨hparent, hread⟩ :=
    parentStep_cases hstep
  · have hfresh := h.fresh (.inl hparent)
    refine ⟨fun _ => hfresh, (by intro h; cases h), (by intro h; cases h), ?_⟩
    intro kernel more _ _
    show w.capture.extend more = newCapture (w.written ++ more)
    rw [hfresh.1]
    rfl
  · obtain ⟨hcapture, hgrants, hreadings⟩ := h.fresh (.inr hparent)
    refine ⟨?_, ?_, ?_, ?_⟩
    · rintro (h | h) <;> cases h
    · intro _
      rw [hgrants, hreadings, hcapture]
      exact ⟨rfl, rfl⟩
    · intro h
      cases h
    · intro kernel more _ _
      show BoundedLoop.Reachable _ _ (w.capture.extend more)
      rw [hcapture]
      exact .refl
  · exact h.test hparent
  · exact h.read hparent hread

/-- Every action keeps the parent on the way of the capture. -/
theorem Simulated.step {scene : Scene} {act : Act} (h : Simulated scene.timeout w)
    (hstep : step scene w act = some w') : Simulated scene.timeout w' := by
  obtain ⟨-, hparent⟩ | ⟨-, hparent, rfl⟩ | ⟨hchild, child, -, rfl⟩ |
    ⟨hchild, bytes, child, -, rfl⟩ | ⟨now, -, rfl⟩ := step_cases hstep
  · exact h.parentStep hparent
  · exact h.readFails hparent
  · exact h.child hchild child
  · exact (h.deliver hchild bytes).child hchild child
  · exact h.clock now

/-- A whole run keeps it too. -/
theorem simulated_of_exec {scene : Scene} {now : ℤ} {acts : List Act}
    (hexec : exec (RadioChatter.Radio.step scene) (forked now) acts = some w) :
    Simulated scene.timeout w := by
  refine exec_invariant (Simulated scene.timeout) (fun _ => True) ?_
    (simulated_forked scene.timeout now) (fun _ _ => trivial) hexec
  intro s act s' hs _ hstep
  exact hs.step hstep

/-- A parent that is through with the loop has left it where the capture of what
was written leaves it. -/
theorem Simulated.exit (h : Simulated timeout w) {outcome : Except Fault (ℕ × List (Option UInt8))}
    (houtcome : w.outcome = some outcome) :
    ∃ c₀ left, BoundedLoop.Reachable (consumeBody w.kernel timeout) (newCapture w.written) c₀ ∧
      consumeBody w.kernel timeout c₀ = .inr left ∧
      outcome = left.map fun c => (c.dataLen, c.radioData) := by
  have hmirrors := h.mirrors w.kernel [] w.agrees_kernel fun _ => rfl
  rw [List.append_nil] at hmirrors
  unfold World.outcome at houtcome
  cases hparent : w.parent with
  | returned =>
      rw [hparent] at houtcome hmirrors
      obtain ⟨c₀, hreach, hbody⟩ := hmirrors
      exact ⟨c₀, _, hreach, hbody, (Option.some.inj houtcome).symm⟩
  | faulted fault =>
      rw [hparent] at houtcome hmirrors
      obtain ⟨c₀, hreach, hbody⟩ := hmirrors
      exact ⟨c₀, _, hreach, hbody, (Option.some.inj houtcome).symm⟩
  | _ =>
      rw [hparent] at houtcome
      cases houtcome

end Simulation

/-- **Every interleaving of the two processes is one capture.** However their
actions are mixed, a parent that is through with the loop has what
`consume_radio_output` has made alone of all that was written, with the reads and
the clock of the run. -/
theorem interleaving_outcome {scene : Scene} {now : ℤ} {acts : List Act} {w : World}
    (hexec : exec (step scene) (forked now) acts = some w)
    {outcome : Except Fault (ℕ × List (Option UInt8))} (houtcome : w.outcome = some outcome)
    {fuel : ℕ} (hfuel : w.written.length < fuel) :
    consumeRadioOutput w.kernel scene.timeout fuel w.written = some outcome := by
  obtain ⟨c₀, left, hreach, hbody, rfl⟩ := (simulated_of_exec hexec).exit houtcome
  obtain ⟨result, hrun, -⟩ := consume_stopped w.kernel scene.timeout hfuel
  obtain rfl := BoundedLoop.run_eq_of_exit hreach hbody hrun
  rw [consumeRadioOutput, hrun, Option.map_some]

/-- A scan of three seconds with nothing in the buffer of `stdout`. -/
def shortScene : Scene where
  timeout := 3
  capacity := 65536
  unflushed := []

/-- The world behind a schedule of the short scan. -/
def worldAfter (acts : List Act) : World :=
  (exec (step shortScene) (forked 0) acts).getD (forked 0)

theorem exec_worldAfter {acts : List Act}
    (h : (exec (step shortScene) (forked 0) acts).isSome = true) :
    exec (step shortScene) (forked 0) acts = some (worldAfter acts) := by
  obtain ⟨w, hw⟩ := Option.isSome_iff_exists.mp h
  rw [worldAfter, hw, Option.getD_some]

/-- The time is up when one of two samples is read. -/
def halfRead : List Act :=
  [.child, .parent, .child, .child, .parent, .parent, .write [1, 2, 3, 4], .parent, .clock 5,
    .parent]

theorem interleaving_outcome_halfRead :
    (worldAfter halfRead).capture.dataLen = 1 ∧
      consumeRadioOutput (worldAfter halfRead).kernel 3 5 (worldAfter halfRead).written =
        some (.ok ((worldAfter halfRead).capture.dataLen,
          (worldAfter halfRead).capture.radioData)) := by
  refine ⟨by decide +kernel, ?_⟩
  exact interleaving_outcome (exec_worldAfter (by decide +kernel)) (by decide +kernel)
    (by decide +kernel)

end RadioChatter.Radio
