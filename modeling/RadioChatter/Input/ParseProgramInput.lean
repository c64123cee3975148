import RadioChatter.Getopt.Options
import RadioChatter.Input.DemodMode
import RadioChatter.Lib.BoundedLoop
import RadioChatter.Lib.Wrap

/-!
`parse_program_input`: the subcommands and the option loop of the scan.

The state of `getopt` is what one call leaves to the next one, so it goes in
and comes out with the result.
-/

namespace RadioChatter.Input

open C99 Getopt

/-- What a call may do that C leaves undefined: in the vector, or in the buffer
of the demodulation mode. -/
inductive ParseFault
  | argv (fault : Getopt.Fault)
  | mode (fault : Checked.Fault)
  | nullPointer
  deriving DecidableEq, Repr

/-- One element of `condense_flags`. -/
def condenseFlag (arg : List Char) : List Char :=
  if arg = "--verbose".toList then ['-', 'v']
  else if arg = "--timeout".toList then ['-', 't']
  else if arg = "--hold-time".toList then ['-', 'h']
  else if arg = "--cycles".toList then ['-', 'c']
  else arg

def condenseFlags (argv : Argv) : Argv := argv.map condenseFlag

/-- `strtol` with base 10: a value out of range is replaced by the limit of a
64-bit `long`. -/
def strtol (nptr : List Char) : ℤ :=
  let signed := scanSign (nptr.dropWhile isSpace)
  let n : ℤ := digitsValue 10 (signed.2.takeWhile Char.isDigit)
  max (-2 ^ 63) (min (2 ^ 63 - 1) (if signed.1 = some true then -n else n))

def atoi (nptr : List Char) : ℤ := CInt.wrap (strtol nptr)

/-- `check_help_command`. -/
def checkHelpCommand (argv : Argv) (input : ProgramInput) : Option ProgramInput :=
  if argv.length = 1 then some { input with subcommand := .help }
  else if argv.length = 2 ∧ argv[1]? = some "help".toList then
    some { input with subcommand := .help }
  else none

/-- The variables of the option loop. -/
structure OptionLoop where
  getopt : State
  margv : Argv
  input : ProgramInput
  deriving DecidableEq, Repr

/-- A pointer into a vector that is freed, or that is left behind unfreed. -/
def releasePointer (freed : Bool) : Pointer → Pointer
  | .into false rest => if freed then .freed else .into true rest
  | p => p

/-- What a call leaves to the next one. -/
def release (freed : Bool) (s : State) : State :=
  { s with nextchar := releasePointer freed s.nextchar }

/-- The result of a call, `none` for the null pointer, with the state after it. -/
abbrev Outcome := Except ParseFault (Option ProgramInput × State)

/-- A case of the `switch` that stores a number. -/
def storeNumber (call : Call) (set : ℤ → ProgramInput) : OptionLoop ⊕ Outcome :=
  match call.optarg with
  | none => .inr (.error .nullPointer)
  | some optarg =>
      if atoi optarg = 0 then .inr (.ok (none, release false call.state))
      else .inl ⟨call.state, call.argv, set (atoi optarg)⟩

/-- One iteration of the option loop of `check_scan_command`. -/
def optionBody (posixlyCorrect : Bool) (loop : OptionLoop) : OptionLoop ⊕ Outcome :=
  match getopt posixlyCorrect loop.getopt loop.margv with
  | .error fault => .inr (.error (.argv fault))
  | .ok call =>
      match call.opt with
      | none => .inr (.ok (some loop.input, release true call.state))
      | some opt =>
          if opt = 't' then storeNumber call fun n => { loop.input with timeout := n }
          else if opt = 'h' then storeNumber call fun n => { loop.input with holdTime := n }
          else if opt = 'c' then storeNumber call fun n => { loop.input with cycles := n }
          else if opt = '?' then .inr (.ok (none, release false call.state))
          -- The `switch` has a case `'i'` for the verbose mode, and none for `'v'`.
          else .inl ⟨call.state, call.argv, loop.input⟩

/-- A bound for the iterations of the option loop. -/
def optionFuel (s : State) (margv : Argv) : ℕ :=
  size (s.nextchar.chars.getD []) margv + 1

/-- The second half of `check_scan_command`, from the flags on. -/
def scanOptions (posixlyCorrect : Bool) (s : State) (argv : Argv) (input : ProgramInput) :
    Option Outcome :=
  let margv := condenseFlags argv
  BoundedLoop.run (optionBody posixlyCorrect) (optionFuel s margv) ⟨s, margv, input⟩

/-- `check_scan_command`, given that there is an element behind the program's
name. -/
def checkScanCommand (a : Arithmetic) (posixlyCorrect : Bool) (s : State) (argv : Argv)
    (input : ProgramInput) : Option Outcome :=
  match argv with
  | _ :: subcommand :: args =>
      if subcommand ≠ "scan".toList then some (.ok (none, s))
      else
        match args with
        | range :: mode :: _ =>
            match sanitizeFrequencyRange a range { input with subcommand := .scan } with
            | none => some (.ok (none, s))
            | some input =>
                match demodMode mode with
                | .error fault => some (.error (.mode fault))
                | .ok none => some (.ok (none, s))
                | .ok (some mode) =>
                    scanOptions posixlyCorrect s argv { input with demodMode := mode }
        -- Fewer than `MIN_CMD_ARGS_RCS_SCAN` elements.
        | _ => some (.ok (none, s))
  | _ => some (.error (.argv .pastArgv))

/-- `parse_program_input`; `none` if the bound of the loop did not suffice. -/
def parseProgramInput (a : Arithmetic) (posixlyCorrect : Bool) (s : State) (argv : Argv) :
    Option Outcome :=
  match checkHelpCommand argv defaultProgramInput with
  | some input => some (.ok (some input, s))
  | none => checkScanCommand a posixlyCorrect s argv defaultProgramInput

end RadioChatter.Input
