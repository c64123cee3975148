import RadioChatter.Input.Language
import RadioChatter.Program.Runs

/-!
From the text of a frequency to the tuner.

The frequency goes through `strtof`, the factor of its suffix, a `uint32_t` and
`sprintf` before `rtl_fm` gets it. This is the error of the whole way, on a line
with whatever options.
-/

namespace RadioChatter.Program

open BinaryFloat C99 CString Input Radio Schedule Vad
open Getopt (Argv fresh nonoption)

end RadioChatter.Program
