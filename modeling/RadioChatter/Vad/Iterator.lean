import RadioChatter.Lib.BoundedLoop
import RadioChatter.Lib.Checked
import Mathlib.Data.Rat.Floor
import Mathlib.Data.Vector.Basic

/-!
The voice-activity detector: `silero::VadIterator` and the `RcsVad` around it.

Floats are exact rationals and C integers are integers. The ONNX session is a
parameter: a function of the tensors handed to it that may also throw. Every
call of it is recorded, together with its tensors, in `Engine.calls`; the
trace is read by nothing in the model.
-/

namespace RadioChatter.Vad

open Checked

/-- What the constructor is given. -/
structure Options where
  threshold : ℚ
  sampleRate : ℤ
  windowSizeMs : ℤ
  speechPadMs : ℤ
  minSilenceDurationMs : ℤ
  minSpeechDurationMs : ℤ
  printAsSamples : Bool
  deriving DecidableEq, Repr

/-- What `init_engine` derives from the options. -/
structure Params where
  minSilenceSamples : ℤ
  speechPadSamples : ℤ
  windowSizeSamples : ℤ
  minSpeechSamples : ℤ
  contextSamples : ℤ
  effectiveWindowSize : ℤ
  inputNodeDims : ℤ × ℤ
  sr : List ℤ
  deriving DecidableEq, Repr

structure VadIterator extends Options, Params where
  context : List ℚ
  state : List ℚ
  input : List ℚ
  outputsProb : List ℚ
  currentSample : ℤ
  totalSampleSize : ℤ
  triggered : Bool
  tempEnd : ℤ
  deriving DecidableEq, Repr

/-- `size_state`, the length of the recurrent state. -/
def sizeState : ℕ := 2 * 1 * 128

/-- The tensors of one `session->Run`. -/
structure ModelCall where
  input : List ℚ
  inputNodeDims : ℤ × ℤ
  state : List ℚ
  sr : List ℤ
  deriving DecidableEq, Repr

/-- The ONNX session: a speech probability and the next recurrent state, or an
exception. -/
abbrev Session (ε : Type) := ModelCall → Except ε (ℚ × List.Vector ℚ sizeState)

structure Engine where
  vad : VadIterator
  calls : List ModelCall
  deriving DecidableEq, Repr

/-- The default arguments of the constructor. -/
def defaultOptions : Options where
  threshold := 1 / 2
  sampleRate := 16000
  windowSizeMs := 32
  speechPadMs := 30
  minSilenceDurationMs := 100
  minSpeechDurationMs := 250
  printAsSamples := false

/-- The constructor. It leaves the members of `Params` other than
`context_samples` uninitialised, and nothing reads them before `init_engine`
has set them. -/
def newVadIterator (o : Options) : VadIterator where
  toOptions := o
  toParams := ⟨0, 0, 0, 0, 64, 0, (0, 0), []⟩
  context := List.replicate 64 0
  state := []
  input := []
  outputsProb := []
  currentSample := 0
  totalSampleSize := 0
  triggered := false
  tempEnd := 0

namespace VadIterator

def resetStates (v : VadIterator) : VadIterator :=
  { v with
    triggered := false
    currentSample := 0
    tempEnd := 0
    outputsProb := []
    totalSampleSize := 0
    state := List.replicate v.state.length 0
    context := List.replicate v.context.length 0 }

/-- `/` on C integers truncates towards zero. -/
def initEngine (v : VadIterator) (windowSizeMs : ℤ) : VadIterator :=
  let windowSizeSamples := (v.sampleRate.tdiv 1000) * windowSizeMs
  let contextSamples := windowSizeSamples.tdiv 8
  let effectiveWindowSize := windowSizeSamples + contextSamples
  { v with
    minSilenceSamples := (v.sampleRate * v.minSilenceDurationMs).tdiv 1000
    speechPadSamples := (v.sampleRate * v.speechPadMs).tdiv 1000
    windowSizeSamples := windowSizeSamples
    minSpeechSamples := (v.sampleRate * v.minSpeechDurationMs).tdiv 1000
    contextSamples := contextSamples
    context := List.replicate contextSamples.toNat 0
    effectiveWindowSize := effectiveWindowSize
    inputNodeDims := (1, effectiveWindowSize)
    state := v.state.takeD sizeState 0
    sr := [v.sampleRate] }

def setVariables (v : VadIterator) : VadIterator := v.initEngine v.windowSizeMs

end VadIterator

/-- The conversion of an `int` to `size_t`. -/
def sizeT (x : ℤ) : ℕ := if x < 0 then (x + 2 ^ 64).toNat else x.toNat

/-- `VadIterator::predict`. -/
def predict {ε : Type} (session : Session ε) (e : Engine) (dataChunk : List ℚ) :
    Except Fault (Engine × Except ε ℚ) := do
  let v := e.vad
  -- The saved context, and the chunk behind it.
  let newData := List.replicate v.effectiveWindowSize.toNat 0
  let newData ← blit newData 0 v.context
  let newData ← blit newData v.contextSamples.toNat dataChunk
  let call : ModelCall := ⟨newData, v.inputNodeDims, v.state, v.sr⟩
  let calls := e.calls ++ [call]
  match session call with
  -- An exception leaves `predict` before `_state` and `_context` are written.
  | .error x => pure (⟨{ v with input := newData }, calls⟩, .error x)
  | .ok (speechProb, stateN) =>
      let state ← blit v.state 0 stateN.toList
      let tail ← takeEnd newData v.contextSamples.toNat
      let context ← blit v.context 0 tail
      pure (⟨{ v with input := newData, state := state, context := context }, calls⟩,
        .ok speechProb)

/-- One test and iteration of the loop of `VadIterator::SpeechProbs`; the
state is the object and the loop counter `j`. -/
def speechProbsBody {ε : Type} (session : Session ε) (inputWav : List ℚ) :
    Engine × ℕ → (Engine × ℕ) ⊕ Except Fault (Engine × Except ε Unit)
  | (e, j) =>
      let total := sizeT e.vad.totalSampleSize
      let window := sizeT e.vad.windowSizeSamples
      if j < total then
        -- The `break` at a window that the capture does not fill.
        if total < j + window then .inr (.ok (e, .ok ()))
        else
          match slice inputWav j (j + window) >>= predict session e with
          | .error fault => .inr (.error fault)
          | .ok (e', .error x) => .inr (.ok (e', .error x))
          | .ok (e', .ok speechProb) =>
              .inl ({ e' with vad := { e'.vad with
                outputsProb := e'.vad.outputsProb ++ [speechProb] } }, j + window)
      else .inr (.ok (e, .ok ()))

/-- `VadIterator::SpeechProbs`. The outer `none` is a loop that has not ended
after `fuel` tests, and the inner error an exception of the session. -/
def speechProbs {ε : Type} (session : Session ε) (fuel : ℕ) (e : Engine) (inputWav : List ℚ) :
    Option (Except Fault (Engine × Except ε Unit)) :=
  BoundedLoop.run (speechProbsBody session inputWav) fuel
    ({ e with vad := { e.vad.resetStates with totalSampleSize := inputWav.length } }, 0)

/-- `Interval`; the end is its last member. -/
structure Interval where
  start : ℚ
  stop : ℚ
  deriving DecidableEq, Repr

/-- An `Interval` in the list that is being built: its end is uninitialised
until it is assigned. -/
structure OpenInterval where
  start : ℚ
  stop : Option ℚ
  deriving DecidableEq, Repr

def OpenInterval.read (s : OpenInterval) : Except Fault Interval :=
  match s.stop with
  | some stop => .ok ⟨s.start, stop⟩
  | none => .error .uninitialised

/-- `speeches.back().end = stop`. -/
def setBackEnd (speeches : List OpenInterval) (stop : ℚ) : Except Fault (List OpenInterval) :=
  match speeches.getLast? with
  | none => .error .emptyBack
  | some segment => .ok (speeches.dropLast ++ [{ segment with stop := some stop }])

namespace VadIterator

/-- The innermost block of the loop of `VadIterator::DoVad`: a window below
the hysteresis band, while a segment is open. -/
def quietWindow (s : VadIterator × List OpenInterval) :
    Except Fault (VadIterator × List OpenInterval) :=
  let v := if s.1.tempEnd = 0 then { s.1 with tempEnd := s.1.currentSample } else s.1
  if v.minSilenceSamples ≤ v.currentSample - v.tempEnd then do
    let stop : ℤ := v.tempEnd + v.speechPadSamples - v.windowSizeSamples
    let speeches ← setBackEnd s.2 stop
    pure ({ v with tempEnd := 0, triggered := false }, speeches)
  else .ok (v, s.2)

/-- One iteration of the loop of `VadIterator::DoVad`. -/
def doVadStep (s : VadIterator × List OpenInterval) (speechProb : ℚ) :
    Except Fault (VadIterator × List OpenInterval) :=
  let v := { s.1 with currentSample := s.1.currentSample + s.1.windowSizeSamples }
  -- A high window forgets the silence that was pending.
  let v := if v.threshold ≤ speechProb ∧ v.tempEnd ≠ 0 then { v with tempEnd := 0 } else v
  if v.threshold ≤ speechProb then
    if v.triggered = false then
      let start : ℤ := max 0 (v.currentSample - v.speechPadSamples - v.windowSizeSamples)
      .ok ({ v with triggered := true }, s.2 ++ [⟨start, none⟩])
    else .ok (v, s.2)
  else if v.triggered then
    if speechProb < v.threshold - 0.15 then quietWindow (v, s.2)
    else .ok (v, s.2)
  else .ok (v, s.2)

/-- The condition under which the length filter removes an interval. -/
def tooShort (v : VadIterator) (speech : Interval) : Bool :=
  (speech.stop - v.speechPadSamples) - (speech.start + v.speechPadSamples) < v.minSpeechSamples

/-- A segment still open after the last window ends with the capture. -/
def doVadFlush (s : VadIterator × List OpenInterval) :
    Except Fault (VadIterator × List OpenInterval) :=
  if s.1.triggered then do
    let speeches ← setBackEnd s.2 s.1.totalSampleSize
    pure ({ s.1 with triggered := false }, speeches)
  else .ok s

def doVad (v : VadIterator) : Except Fault (VadIterator × List Interval) := do
  let s ← v.outputsProb.foldlM doVadStep (v, [])
  let (v, speeches) ← doVadFlush s
  -- The filter reads the ends: one that was never assigned is a fault.
  let speeches ← speeches.mapM OpenInterval.read
  pure (v.resetStates, speeches.filter fun speech => !v.tooShort speech)

def getSpeechTimestamps (v : VadIterator) : Except Fault (VadIterator × List Interval) := do
  let (v, speeches) ← v.doVad
  if v.printAsSamples then pure (v, speeches)
  else
    pure (v, speeches.map fun speech =>
      ⟨speech.start / v.sampleRate, speech.stop / v.sampleRate⟩)

end VadIterator

/-! ### The class `RcsVad` -/

/-- The conversion of a float to an integer. -/
def truncate (x : ℚ) : ℤ := x.num.tdiv x.den

/-- The constructor of `RcsVad`, behind `rcs_vad_create`. -/
def rcsVadCreate (sampleRate threshold : ℚ) : VadIterator :=
  { newVadIterator defaultOptions with
    threshold := threshold
    sampleRate := truncate sampleRate
    printAsSamples := false }.setVariables

/-- `INT16_MAX + 1.0f`. -/
def normalizationFactor : ℚ := 32767 + 1

/-- The samples of a capture as the detector reads them. -/
def inputData (data : List Int16) : List ℚ := data.map fun x => x.toInt / normalizationFactor

/-- `RcsVad::has_voice_activity`. -/
def hasVoiceActivity {ε : Type} (session : Session ε) (fuel : ℕ) (e : Engine)
    (data : List Int16) : Option (Except Fault (Engine × Except ε Bool)) :=
  (speechProbs session fuel e (inputData data)).map fun outcome => do
    match ← outcome with
    | (e, .error x) => pure (e, .error x)
    | (e, .ok ()) =>
        let (v, speeches) ← e.vad.getSpeechTimestamps
        pure ({ e with vad := v }, .ok (0 < speeches.length))

end RadioChatter.Vad
