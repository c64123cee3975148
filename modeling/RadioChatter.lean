import RadioChatter.Lib.BoundedLoop
import RadioChatter.Lib.Checked
import RadioChatter.Lib.Segmenter
import RadioChatter.Lib.Widening
import RadioChatter.Lib.Grouping
import RadioChatter.Vad.Iterator
import RadioChatter.Vad.Detector
import RadioChatter.Vad.Verdict
import RadioChatter.Vad.SingleVerdict
import RadioChatter.Vad.Invariance
import RadioChatter.Lib.Overlap
import RadioChatter.Vad.Windows
import RadioChatter.Vad.Isolation
import RadioChatter.Db.Open
import RadioChatter.Radio.Capture
import RadioChatter.Lib.Numeral
import RadioChatter.Lib.NumeralScan
import RadioChatter.Input.FrequencyRange
import RadioChatter.Input.RangeSyntax
import RadioChatter.Vad.WellFormed
import RadioChatter.Input.DemodMode
import RadioChatter.Db.Store
import RadioChatter.Input.Hertz
import RadioChatter.Radio.Growth
import RadioChatter.Db.Schema
import RadioChatter.Input.IntegerHertz
import RadioChatter.Lib.BinaryFloat
import RadioChatter.Input.SinglePrecision
import RadioChatter.Getopt.Options
import RadioChatter.Input.ParseProgramInput
import RadioChatter.Input.ScanOptions
import RadioChatter.Input.NumericOptions
import RadioChatter.Input.Reparse
import RadioChatter.Input.Language
import RadioChatter.Radio.Frequency
import RadioChatter.Vad.SegmentList
import RadioChatter.Vad.WindowLoop
import RadioChatter.Lib.Schedule
import RadioChatter.Radio.Processes
import RadioChatter.Radio.Delivery
import RadioChatter.Getopt.Permutation
import RadioChatter.Input.Arrangement
import RadioChatter.Input.CommandLine
import RadioChatter.Program.Main
import RadioChatter.Vad.SinglePrecision
import RadioChatter.Vad.Continuation
import RadioChatter.Db.Sharing
import RadioChatter.Program.Runs
import RadioChatter.Program.Tuning
