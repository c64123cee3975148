import RadioChatter.Input.ParseProgramInput
import RadioChatter.Radio.Frequency
import RadioChatter.Radio.Processes
import RadioChatter.Radio.Samples
import RadioChatter.Vad.SingleVerdict

/-!
The program from its command line to its exit status.

A run has effects, which are recorded in their order, and an ending. Everything
that is not the program's own is in `Host`: what the operating system and the
libraries answer, the session of the model, and how the two processes of a
capture are scheduled. The child itself and what the parent takes from it are
those of `Radio.Processes`.
-/

namespace RadioChatter.Program

open Input Radio Schedule Vad
open Getopt (Argv fresh)

inductive Effect
  | stdout (text : List Char)
  | stderr (text : List Char)
  /-- a child for `rtl_fm` with these arguments -/
  | fork (args : List (List Char))
  /-- `SIGTERM` for the child -/
  | kill
  deriving DecidableEq, Repr

inductive Ending
  | exit (status : ℕ)
  | parseFault (fault : ParseFault)
  | fault (fault : Checked.Fault)
  /-- an exception that nothing catches -/
  | terminate
  /-- the schedule is over before the capture is, or it is none -/
  | waits
  deriving DecidableEq, Repr

/-- The surroundings of a run. -/
structure Host where
  arithmetic : Arithmetic
  posixlyCorrect : Bool
  deviceCount : ℕ
  manufacturer : List Char
  productName : List Char
  deviceName : List Char
  /-- whether `stdout` is a terminal, and so is flushed at the end of a line -/
  terminal : Bool
  pipeFails : Bool
  forkFails : Bool
  /-- the conversion of an `int` to `float` -/
  float : ℤ → ℚ
  now : ℤ
  capacity : ℕ
  schedule : List Act
  /-- what memory from `malloc` holds before it is written -/
  heap : ℕ → UInt8
  /-- what `strerror` says when a read ends the capture -/
  errorText : List Char
  /-- the session of `model/silero_vad.onnx`, unless it cannot be loaded -/
  model : Option (Session Unit)

/-- `EXIT_SUCCESS`. -/
def exitSuccess : ℕ := 0

/-- `INVALID_PROGRAM_USAGE`. -/
def invalidProgramUsage : ℕ := 2

/-- `NO_RADIO_DEVICE_FOUND`. -/
def noRadioDeviceFound : ℕ := 4

/-- `RTL_FM_FAILED`. -/
def rtlFmFailed : ℕ := 7

/-- The text of `display_help`. -/
def usage : List Char :=
  ("Usage: rcs [subcommand] [<args>]\n\n" ++
    "The following rcs commands and arguments are:\n" ++
    "   help        Show this description on using rcs\n\n" ++
    "   scan [range] [mode]    Actively scan a range of frequencies with voice detection\n" ++
    "       ex. rcs scan 101.5M-109.5M wbfm\n" ++
    "       -v, --verbose\n" ++
    "       -t, --timeout (in sec.)\n" ++
    "       -h --hold-time (in sec.)\n" ++
    "       -c --cycles (integer)\n\n").toList

namespace Host

variable (host : Host)

/-- What `radio_device_check` prints about the device. -/
def announcement : List Char :=
  "Found available device: ".toList ++ host.manufacturer ++ ", ".toList ++ host.productName ++
    ", ".toList ++ host.deviceName ++ "\n\n".toList

/-- What the buffer of `stdout` holds when the child is forked. -/
def unflushed : List UInt8 :=
  if host.terminal then [] else host.announcement.map fun c => c.val.toUInt8

def scene (timeout : ℚ) : Scene := ⟨timeout, host.capacity, host.unflushed⟩

/-- Both processes after the actions of the schedule. -/
def world (timeout : ℚ) : Option World :=
  exec (step (host.scene timeout)) (forked host.now) host.schedule

/-- `consume_radio_output` beside its child: whether it calls `perror`, and what it
returns. -/
def consumed (timeout : ℚ) : Except Ending (Bool × ℕ × List (Option UInt8)) :=
  match host.world timeout with
  | none => .error .waits
  | some w =>
      match w.outcome with
      | none => .error .waits
      | some (.error fault) => .error (.fault fault)
      | some (.ok r) => .ok (w.complained, r)

/-- The effect of `perror`, if it is called. -/
def complaint (complained : Bool) : List Effect :=
  if complained then [.stderr ("Error: : ".toList ++ host.errorText ++ ['\n'])] else []

/-- `rcs_vad_create` and `rcs_vad_determine_voice_activity`, with every rounding of
`DoVad`. -/
def determineVoiceActivity (data : List Int16) : Except Ending Bool :=
  match host.model with
  | none => .error .terminate
  | some session =>
      match hasVoiceActivityFloat session (data.length + 1) ⟨rcsVadCreate 16000 0.5, []⟩ data with
      | none => .error .waits
      | some (.error fault) => .error (.fault fault)
      | some (.ok (_, .error _)) => .error .terminate
      | some (.ok (_, .ok verdict)) => .ok verdict

end Host

/-- A program with its effects so far; an ending keeps them. -/
abbrev Proc (α : Type) := EStateM Ending (List Effect) α

def perform (effect : Effect) : Proc Unit := modify (· ++ [effect])

def performAll (effects : List Effect) : Proc Unit := modify (· ++ effects)

def orFault {α : Type} : Except Checked.Fault α → Proc α
  | .ok x => pure x
  | .error fault => throw (.fault fault)

def orEnd {α : Type} : Except Ending α → Proc α
  | .ok x => pure x
  | .error ending => throw ending

/-- `radio_device_check`. -/
def radioDeviceCheck (host : Host) : Proc Unit := do
  if host.deviceCount = 0 then
    perform (.stderr "No rtlsdr device could be found, please connect and retry\n".toList)
    throw (.exit noRadioDeviceFound)
  else perform (.stdout host.announcement)

/-- The line about the capture. -/
def verdictText (hasVoiceActivity : Bool) : List Char :=
  if hasVoiceActivity then "Voice activity detected on provided frequency!\n".toList
  else "No voice activity detected :(\n".toList

/-- The part of `radio_scan_single_freq` behind the `fork`, in the parent. -/
def scanForked (host : Host) (args : List (List Char)) (timeout : ℚ) : Proc Unit := do
  perform (.fork args)
  let (complained, dataLen, radioData) ← orEnd (host.consumed timeout)
  performAll (host.complaint complained)
  let verdict ← orEnd (host.determineVoiceActivity (samplesIn host.heap dataLen radioData))
  perform (.stdout (verdictText verdict))
  perform .kill

/-- `radio_scan_single_freq`. -/
def radioScanSingleFreq (host : Host) (freq : UInt32) (timeout : ℚ) (demodMode : DemodMode) :
    Proc Unit := do
  let args ← orFault (Radio.radioScanSingleFreq freq demodMode)
  if host.pipeFails then
    perform (.stderr "Failed to create a needed pipe".toList)
    throw (.exit 1)
  else if host.forkFails then
    perform (.stderr "Failed to spawn needed process\n".toList)
    throw (.exit rtlFmFailed)
  else scanForked host args timeout

/-- The `switch` of `main`. -/
def runSubcommand (host : Host) (input : ProgramInput) : Proc Unit :=
  match input.subcommand with
  | .help => perform (.stdout usage)
  | .scan => do
      radioDeviceCheck host
      if input.freqStart = input.freqEnd then
        radioScanSingleFreq host (.ofNat input.freqStart) (host.float input.holdTime)
          input.demodMode
      -- The call for a range of frequencies is commented out.
      else pure ()

def main (host : Host) (argv : Argv) : Proc Unit :=
  match parseProgramInput host.arithmetic host.posixlyCorrect fresh argv with
  | none => throw .waits
  | some (.error fault) => throw (.parseFault fault)
  | some (.ok (input, g)) => do
      performAll (g.printed.map Effect.stderr)
      match input with
      | none => do
          perform (.stderr "Invalid usage: See 'rcs help'\n".toList)
          throw (.exit invalidProgramUsage)
      | some input => runSubcommand host input

/-- The effects of a run, and its ending. -/
def run (host : Host) (argv : Argv) : List Effect × Ending :=
  match main host argv [] with
  | .ok _ effects => (effects, .exit exitSuccess)
  | .error ending effects => (effects, ending)

end RadioChatter.Program
