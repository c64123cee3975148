import RadioChatter.Radio.Capture

/-!
How the buffer of a capture grows over a whole run.

The capacity goes through `1000 * 2 ^ k` and is at most `lastCap`; the next
doubling would exceed an `int`. Nothing but the time stops a capture before
that.
-/

namespace RadioChatter.Radio

open Checked BoundedLoop

/-- At every iteration the resize is defined, the sample goes to an index
below the capacity of a buffer of that size, and the samples before it are
still where they were. -/
def Grows (kernel : Kernel) (timeout : ℚ) (stream : List UInt8) : Prop :=
  ∀ s, Reachable (consumeBody kernel timeout) (newCapture stream) s →
    InTime kernel timeout s.reads →
      ∃ s', resize s = .ok s' ∧ s'.dataLen = s.dataLen ∧ s'.dataLen < s'.dataCap ∧
        s'.dataCap ≤ intMax ∧ s'.radioData.length = sampleSize * s'.dataCap ∧
        s'.radioData.take (sampleSize * s.dataLen) = s.radioData.take (sampleSize * s.dataLen)

variable {kernel : Kernel} {timeout : ℚ} {stream : List UInt8}

theorem Captured.of_reachable {s : Capture}
    (h : Reachable (RadioChatter.Radio.consumeBody kernel timeout) (newCapture stream) s) :
    Captured kernel timeout stream s :=
  h.invariant (Captured kernel timeout stream) (fun _ _ hs hbody => (hs.step hbody).1)
    captured_newCapture

theorem lastCap_le_intMax : lastCap ≤ intMax := by decide

theorem grows_of_not_reached (hlast : ¬ Reached kernel timeout stream (lastCap - 1)) :
    Grows kernel timeout stream := by
  intro s hs htime
  have h : Captured kernel timeout stream s := Captured.of_reachable hs
  rw [h.reads] at htime
  obtain ⟨s', hresize, h', hlen, hroom⟩ | ⟨-, hfull⟩ := h.resize
  · refine ⟨s', hresize, hlen, ?_, h'.le_lastCap.trans lastCap_le_intMax, h'.length_radioData, ?_⟩
    · omega
    · rw [h.take_radioData, ← hlen, h'.take_radioData]
  · exact absurd (h.reached_of_full htime hfull) hlast

/-- A capture that goes on long enough fills the last capacity. -/
theorem not_grows_of_reached (hlast : Reached kernel timeout stream (lastCap - 1)) :
    ¬ Grows kernel timeout stream := by
  intro hgrows
  obtain ⟨outcome, hrun, hstop⟩ :=
    consume_stopped kernel timeout (Nat.lt_succ_self stream.length)
  cases outcome with
  | ok s => exact not_reached_lastCap hstop hlast
  | error fault =>
      -- The run is left at a state whose resize has overflowed.
      obtain ⟨t, hreach, hexit⟩ := exists_exit_of_run hrun
      have h : Captured kernel timeout stream t := Captured.of_reachable hreach
      obtain ⟨-, hbody⟩ | ⟨htime, hfull, -⟩ | ⟨s', -, -, -, hbody⟩ | ⟨s', -, -, hbody⟩ :=
        h.consumeBody
      · cases hbody.symm.trans hexit
      · have htime' : InTime kernel timeout t.reads := by rwa [h.reads]
        obtain ⟨s', hresize, -⟩ := hgrows t hreach htime'
        obtain ⟨s'', hresize', h', hlen, hroom⟩ | ⟨hresize', -⟩ := h.resize
        · have hle := h'.le_lastCap
          omega
        · cases hresize.symm.trans hresize'
      · cases hbody.symm.trans hexit
      · cases hbody.symm.trans hexit

/-- **The growth of the buffer.** It is sound over the whole run unless the
loop is entered for the sample that would need a capacity beyond an `int`. -/
theorem grows_iff (kernel : Kernel) (timeout : ℚ) (stream : List UInt8) :
    Grows kernel timeout stream ↔ ¬ Reached kernel timeout stream (lastCap - 1) :=
  ⟨fun h hlast => not_grows_of_reached hlast h, grows_of_not_reached⟩

/-! ### A capture that is long enough -/

/-- Whole samples at 16 kHz. -/
def steadyKernel : Kernel where
  grant _ := .two
  clock n := n / 16000

/-- 40 hours in seconds. -/
def longHoldTime : ℚ := 144000

/-- Silence that fills the last capacity. -/
def silence : List UInt8 := List.replicate (sampleSize * lastCap) 0

theorem pipeAt_silence (n : ℕ) :
    pipeAt steadyKernel silence n = List.replicate (sampleSize * (lastCap - n)) 0 := by
  induction n with
  | zero => rfl
  | succ n ih =>
      rw [pipeAt, ih]
      simp only [steadyKernel, Grant.read, Option.getD_some, List.length_take,
        List.length_replicate, List.drop_replicate, sampleSize]
      congr 1
      omega

theorem reached_silence : Reached steadyKernel longHoldTime silence (lastCap - 1) := by
  have hlast : lastCap = 2097152000 := rfl
  constructor
  · intro n hn
    have hclock : steadyKernel.clock (n + 1) - steadyKernel.clock 0 < 144000 := by
      simp only [steadyKernel]
      omega
    rw [InTime, longHoldTime]
    exact_mod_cast hclock
  · intro n hn
    have hpipe := pipeAt_silence n
    rw [bytesAt, hpipe]
    simp [steadyKernel, Grant.read, sampleSize]
    omega

theorem not_grows_silence : ¬ Grows steadyKernel longHoldTime silence :=
  not_grows_of_reached reached_silence

end RadioChatter.Radio
