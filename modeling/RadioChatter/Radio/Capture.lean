import RadioChatter.Lib.BoundedLoop
import RadioChatter.Lib.Checked
import Mathlib.Algebra.Order.Ring.Unbundled.Rat
import Mathlib.Tactic.IntervalCases
import Mathlib.Tactic.Linarith

/-!
The capture of `radio.c`: samples of two bytes each, read from the pipe into a
buffer that doubles when it is full.

The bytes of the buffer that nothing has written yet are `none`, so a sample
that was built from fewer than two bytes can be told from a whole one. How the
kernel serves each read, and what the clock shows at each test of the loop,
are given from outside. The seconds that have passed are compared with the
timeout as they are; the code compares them as a `float`, which is the same up to
`2 ^ 24` seconds, or 194 days.
-/

namespace RadioChatter.Radio

open Checked

/-- How the kernel serves one `read` of two bytes while bytes are left. -/
inductive Grant
  | one
  | two
  | error
  deriving DecidableEq, Repr

/-- The surroundings of a capture; reading 0 of the clock is its start. -/
structure Kernel where
  grant : ℕ → Grant
  clock : ℕ → ℤ

/-- The bytes that arrive, none at the end of the stream, or an error. -/
def Grant.read (pipe : List UInt8) : Grant → Option (List UInt8)
  | .one => some (pipe.take 1)
  | .two => some (pipe.take 2)
  | .error => none

/-- The result of the call `read`. -/
def readResult : Option (List UInt8) → ℤ
  | none => -1
  | some bytes => bytes.length

/-- The local variables of `consume_radio_output`, with what is left in the
pipe and the number of reads that were made. -/
structure Capture where
  radioData : List (Option UInt8)
  dataCap : ℕ
  dataLen : ℕ
  pipe : List UInt8
  reads : ℕ
  deriving DecidableEq, Repr

/-- `sizeof(int16_t)`. -/
def sampleSize : ℕ := 2

def intMax : ℕ := 2 ^ 31 - 1

/-- The first value of `dataCap`. -/
def initialCap : ℕ := 1000

/-- The buffer when the loop begins, before a stream of bytes. -/
def newCapture (stream : List UInt8) : Capture where
  radioData := List.replicate (sampleSize * initialCap) none
  dataCap := initialCap
  dataLen := 0
  pipe := stream
  reads := 0

/-- The resize at the head of the loop. Doubling beyond `INT_MAX` is undefined;
`realloc` keeps the bytes of the old block. -/
def resize (s : Capture) : Except Fault Capture :=
  if s.dataCap ≤ s.dataLen + 1 then
    if s.dataCap * 2 ≤ intMax then
      .ok { s with
        dataCap := s.dataCap * 2
        radioData := s.radioData ++
          List.replicate (sampleSize * (s.dataCap * 2) - s.radioData.length) none }
    else .error .overflow
  else .ok s

/-- The bytes of one read go to `(*radio_data)[data_len]`. -/
def store (s : Capture) (bytes : List UInt8) : Except Fault Capture := do
  let radioData ← blit s.radioData (sampleSize * s.dataLen) (bytes.map some)
  pure { s with
    radioData := radioData
    dataLen := s.dataLen + 1
    pipe := s.pipe.drop bytes.length
    reads := s.reads + 1 }

/-- One test and iteration of the loop of `consume_radio_output`. -/
def consumeBody (kernel : Kernel) (timeout : ℚ) (s : Capture) :
    Capture ⊕ Except Fault Capture :=
  if ((kernel.clock (s.reads + 1) - kernel.clock 0 : ℤ) : ℚ) < timeout then
    match resize s with
    | .error fault => .inr (.error fault)
    | .ok s =>
        let result := (kernel.grant s.reads).read s.pipe
        -- A read that delivers one byte passes here like a whole sample.
        if readResult result ≤ 0 then .inr (.ok s)
        else
          match store s (result.getD []) with
          | .error fault => .inr (.error fault)
          | .ok s => .inl s
  else .inr (.ok s)

/-- `consume_radio_output`: the number of samples, and the bytes of the buffer. -/
def consumeRadioOutput (kernel : Kernel) (timeout : ℚ) (fuel : ℕ) (stream : List UInt8) :
    Option (Except Fault (ℕ × List (Option UInt8))) :=
  (BoundedLoop.run (consumeBody kernel timeout) fuel (newCapture stream)).map fun outcome =>
    outcome.map fun s => (s.dataLen, s.radioData)

/-- The samples are the first ones of the stream, whole and in order. -/
def Faithful (stream : List UInt8) (outcome : Except Fault (ℕ × List (Option UInt8))) : Prop :=
  ∃ dataLen radioData, outcome = .ok (dataLen, radioData) ∧
    sampleSize * dataLen ≤ stream.length ∧
    radioData.take (sampleSize * dataLen) = (stream.take (sampleSize * dataLen)).map some

instance (stream : List UInt8) : DecidablePred (Faithful stream)
  | .error _ => isFalse (by rintro ⟨_, _, h, -⟩; cases h)
  | .ok (dataLen, radioData) =>
      decidable_of_iff (sampleSize * dataLen ≤ stream.length ∧
        radioData.take (sampleSize * dataLen) = (stream.take (sampleSize * dataLen)).map some)
        ⟨fun h => ⟨dataLen, radioData, rfl, h⟩, by
          rintro ⟨_, _, heq, h⟩
          obtain ⟨rfl, rfl⟩ := Prod.mk.inj (Except.ok.inj heq)
          exact h⟩

/-! ### What the kernel delivers -/

section Kernel

variable (kernel : Kernel) (timeout : ℚ) (stream : List UInt8)

/-- What is left in the pipe before read `n`. -/
def pipeAt : ℕ → List UInt8
  | 0 => stream
  | n + 1 => (pipeAt n).drop (((kernel.grant n).read (pipeAt n)).getD []).length

/-- The bytes that read `n` delivers. -/
def bytesAt (n : ℕ) : List UInt8 :=
  ((kernel.grant n).read (pipeAt kernel stream n)).getD []

def InTime (n : ℕ) : Prop := ((kernel.clock (n + 1) - kernel.clock 0 : ℤ) : ℚ) < timeout

/-- The loop is entered for read `n`: the clock has not run out, and no read
before it has failed. -/
def Reached (n : ℕ) : Prop :=
  (∀ k ≤ n, InTime kernel timeout k) ∧ ∀ k < n, bytesAt kernel stream k ≠ []

/-- What read `n` makes of the two bytes of its sample. -/
def sampleBytes (n : ℕ) : List (Option UInt8) :=
  (bytesAt kernel stream n).map some ++
    List.replicate (sampleSize - (bytesAt kernel stream n).length) none

theorem length_bytesAt_le (n : ℕ) : (bytesAt kernel stream n).length ≤ sampleSize := by
  rw [bytesAt, sampleSize]
  cases kernel.grant n with
  | one => simp only [Grant.read, Option.getD_some, List.length_take]; omega
  | two => simp only [Grant.read, Option.getD_some, List.length_take]; omega
  | error => simp [Grant.read]

@[simp] theorem pipeAt_succ (n : ℕ) :
    pipeAt kernel stream (n + 1) =
      (pipeAt kernel stream n).drop (bytesAt kernel stream n).length := rfl

/-- A read delivers the bytes at the front of the pipe. -/
theorem bytesAt_eq_take (n : ℕ) :
    bytesAt kernel stream n =
      (pipeAt kernel stream n).take (bytesAt kernel stream n).length := by
  rw [bytesAt]
  cases kernel.grant n with
  | one => simp [Grant.read]
  | two => simp [Grant.read]
  | error => simp [Grant.read]

theorem readResult_pos_iff (n : ℕ) :
    0 < readResult ((kernel.grant n).read (pipeAt kernel stream n)) ↔
      bytesAt kernel stream n ≠ [] := by
  rw [bytesAt, ← List.length_pos_iff]
  cases (kernel.grant n).read (pipeAt kernel stream n) with
  | none => simp [readResult]
  | some bytes => simp [readResult]

@[simp] theorem length_sampleBytes (n : ℕ) : (sampleBytes kernel stream n).length = sampleSize := by
  have hle := length_bytesAt_le kernel stream n
  rw [sampleBytes, List.length_append, List.length_map, List.length_replicate]
  omega

@[simp] theorem length_flatMap_sampleBytes (n : ℕ) :
    ((List.range n).flatMap (sampleBytes kernel stream)).length = sampleSize * n := by
  induction n with
  | zero => rfl
  | succ n ih =>
      rw [List.range_succ, List.flatMap_append, List.length_append, ih, List.flatMap_singleton,
        length_sampleBytes, Nat.mul_succ]

variable {kernel timeout stream}

/-- As long as every read is whole, the samples are those of the stream. -/
theorem flatMap_sampleBytes_of_whole {n : ℕ}
    (h : ∀ k < n, (bytesAt kernel stream k).length = sampleSize) :
    pipeAt kernel stream n = stream.drop (sampleSize * n) ∧ sampleSize * n ≤ stream.length ∧
      (List.range n).flatMap (sampleBytes kernel stream) =
        (stream.take (sampleSize * n)).map some := by
  induction n with
  | zero => exact ⟨rfl, Nat.zero_le _, rfl⟩
  | succ n ih =>
      obtain ⟨hpipe, hlength, hsamples⟩ := ih fun k hk => h k (by omega)
      have hwhole := h n (Nat.lt_succ_self n)
      have hbytes : bytesAt kernel stream n = (stream.drop (sampleSize * n)).take sampleSize := by
        rw [bytesAt_eq_take, hwhole, hpipe]
      refine ⟨?_, ?_, ?_⟩
      · rw [pipeAt_succ, hpipe, hwhole, List.drop_drop, Nat.mul_succ]
      · have hroom : ((stream.drop (sampleSize * n)).take sampleSize).length = sampleSize := by
          rw [← hbytes, hwhole]
        rw [List.length_take, List.length_drop] at hroom
        rw [Nat.mul_succ]
        omega
      · rw [List.range_succ, List.flatMap_append, hsamples, List.flatMap_singleton, sampleBytes,
          hwhole, Nat.sub_self, List.replicate_zero, List.append_nil, hbytes, ← List.map_append,
          Nat.mul_succ, List.take_add]

/-- A read of one byte leaves a byte of its sample unwritten. -/
theorem flatMap_sampleBytes_of_short {n k : ℕ} (hk : k < n)
    (h : (bytesAt kernel stream k).length = 1) (l : List UInt8) :
    (List.range n).flatMap (sampleBytes kernel stream) ≠ l.map some := by
  intro heq
  have hnone : none ∈ (List.range n).flatMap (sampleBytes kernel stream) := by
    rw [List.mem_flatMap]
    refine ⟨k, List.mem_range.mpr hk, ?_⟩
    rw [sampleBytes, h]
    simp [sampleSize]
  rw [heq] at hnone
  simp at hnone

/-! ### The loop -/

/-- How often the capacity can be doubled within an `int`. -/
def doublings : ℕ := 21

def lastCap : ℕ := initialCap * 2 ^ doublings

variable (kernel timeout stream)

/-- What holds at the head of the loop. -/
structure Captured (s : Capture) : Prop where
  reads : s.reads = s.dataLen
  pipe : s.pipe = pipeAt kernel stream s.dataLen
  cap : ∃ j ≤ doublings, s.dataCap = initialCap * 2 ^ j
  room : s.dataLen + 1 ≤ s.dataCap
  data : s.radioData = (List.range s.dataLen).flatMap (sampleBytes kernel stream) ++
    List.replicate (sampleSize * (s.dataCap - s.dataLen)) none
  past : ∀ k < s.dataLen, InTime kernel timeout k ∧ bytesAt kernel stream k ≠ []

variable {kernel timeout stream}

theorem captured_newCapture : Captured kernel timeout stream (newCapture stream) where
  reads := rfl
  pipe := rfl
  cap := ⟨0, Nat.zero_le _, (Nat.mul_one initialCap).symm⟩
  room := by simp [newCapture, initialCap]
  data := rfl
  past := by
    intro k hk
    exact absurd hk (Nat.not_lt_zero k)

theorem Captured.le_lastCap {s : Capture} (h : Captured kernel timeout stream s) :
    s.dataCap ≤ lastCap := by
  obtain ⟨j, hj, hcap⟩ := h.cap
  rw [hcap, lastCap]
  exact Nat.mul_le_mul_left initialCap (Nat.pow_le_pow_right (by omega) hj)

theorem Captured.length_radioData {s : Capture} (h : Captured kernel timeout stream s) :
    s.radioData.length = sampleSize * s.dataCap := by
  have hroom := h.room
  rw [h.data, List.length_append, length_flatMap_sampleBytes, List.length_replicate,
    ← Nat.mul_add]
  congr 1
  omega

/-- The last capacity is the only one that cannot be doubled. -/
theorem doubles_iff {j : ℕ} (hj : j ≤ doublings) :
    initialCap * 2 ^ j * 2 ≤ intMax ↔ j < doublings := by
  constructor
  · intro h
    apply Nat.lt_of_le_of_ne hj
    rintro rfl
    exact absurd h (by decide)
  · intro h
    have hpow : 2 ^ j ≤ 2 ^ 20 := Nat.pow_le_pow_right (by omega) (Nat.le_of_lt_succ h)
    rw [intMax, initialCap]
    omega

/-- Resizing keeps the samples and makes room for another one, or it is the
last capacity that would have to be doubled. -/
theorem Captured.resize {s : Capture} (h : Captured kernel timeout stream s) :
    (∃ s', resize s = .ok s' ∧ Captured kernel timeout stream s' ∧ s'.dataLen = s.dataLen ∧
        s.dataLen + 1 < s'.dataCap) ∨
      resize s = .error .overflow ∧ s.dataLen + 1 = lastCap := by
  have hroom := h.room
  obtain ⟨j, hj, hcap⟩ := h.cap
  unfold RadioChatter.Radio.resize
  by_cases hfull : s.dataCap ≤ s.dataLen + 1
  · rw [if_pos hfull]
    by_cases hdouble : j < doublings
    · left
      rw [if_pos (hcap ▸ (doubles_iff hj).mpr hdouble)]
      refine ⟨_, rfl, ⟨h.reads, h.pipe, ⟨j + 1, hdouble, ?_⟩, ?_, ?_, h.past⟩, rfl, ?_⟩
      · rw [hcap, Nat.pow_succ, Nat.mul_assoc]
      · dsimp only
        omega
      · -- The new block continues the unwritten tail of the old one.
        rw [h.length_radioData, h.data, List.append_assoc, ← List.replicate_add]
        dsimp only
        congr 2
        simp only [sampleSize]
        omega
      · dsimp only
        omega
    · right
      rw [if_neg (hcap ▸ (doubles_iff hj).not.mpr hdouble)]
      have hlast : s.dataCap = lastCap := by
        rw [hcap, lastCap, show j = doublings by omega]
      refine ⟨rfl, ?_⟩
      omega
  · left
    rw [if_neg hfull]
    exact ⟨s, rfl, h, rfl, by omega⟩

/-- The bytes of a read go behind the samples before it. -/
theorem Captured.blit_sample {s : Capture} (h : Captured kernel timeout stream s)
    (hroom : s.dataLen + 1 < s.dataCap) :
    blit s.radioData (sampleSize * s.dataLen) ((bytesAt kernel stream s.dataLen).map some) =
      .ok ((List.range (s.dataLen + 1)).flatMap (sampleBytes kernel stream) ++
        List.replicate (sampleSize * (s.dataCap - (s.dataLen + 1))) none) := by
  have hle := length_bytesAt_le kernel stream s.dataLen
  have hlength := length_flatMap_sampleBytes kernel stream s.dataLen
  have htail : sampleSize * (s.dataCap - s.dataLen) - (bytesAt kernel stream s.dataLen).length =
      (sampleSize - (bytesAt kernel stream s.dataLen).length) +
        sampleSize * (s.dataCap - (s.dataLen + 1)) := by
    simp only [sampleSize] at hle ⊢
    omega
  rw [blit_eq_ok, h.data, List.take_left' hlength, List.length_map, ← List.drop_drop,
    List.drop_left' hlength, List.drop_replicate, htail, List.replicate_add, List.range_succ,
    List.flatMap_append, List.flatMap_singleton, sampleBytes]
  · simp only [List.append_assoc]
  · rw [h.length_radioData, List.length_map]
    simp only [sampleSize] at hle ⊢
    omega

/-- The bytes of a read make the next sample. -/
theorem Captured.store {s : Capture} (h : Captured kernel timeout stream s)
    (hroom : s.dataLen + 1 < s.dataCap) (htime : InTime kernel timeout s.dataLen)
    (hbytes : bytesAt kernel stream s.dataLen ≠ []) :
    ∃ s', store s (bytesAt kernel stream s.dataLen) = .ok s' ∧
      Captured kernel timeout stream s' ∧ s'.pipe.length < s.pipe.length := by
  have hpos : 0 < (bytesAt kernel stream s.dataLen).length := List.length_pos_iff.mpr hbytes
  refine ⟨_, by rw [RadioChatter.Radio.store, h.blit_sample hroom]; rfl, ?_, ?_⟩
  · refine ⟨?_, ?_, h.cap, ?_, rfl, ?_⟩
    · dsimp only
      rw [h.reads]
    · dsimp only
      rw [h.pipe, pipeAt_succ]
    · exact hroom
    · intro k hk
      dsimp only at hk
      obtain hk | rfl : k < s.dataLen ∨ k = s.dataLen := by omega
      · exact h.past k hk
      · exact ⟨htime, hbytes⟩
  · have hpipe : (bytesAt kernel stream s.dataLen).length ≤ s.pipe.length := by
      rw [h.pipe, bytesAt_eq_take, List.length_take]
      omega
    dsimp only
    rw [List.length_drop]
    omega

/-- What one test and iteration of the loop can do. -/
theorem Captured.consumeBody {s : Capture} (h : Captured kernel timeout stream s) :
    (¬ InTime kernel timeout s.dataLen ∧ consumeBody kernel timeout s = .inr (.ok s)) ∨
    (InTime kernel timeout s.dataLen ∧ s.dataLen + 1 = lastCap ∧
      consumeBody kernel timeout s = .inr (.error .overflow)) ∨
    (∃ s', Captured kernel timeout stream s' ∧ s'.dataLen + 1 < lastCap ∧
      bytesAt kernel stream s'.dataLen = [] ∧ consumeBody kernel timeout s = .inr (.ok s')) ∨
    ∃ s', Captured kernel timeout stream s' ∧ s'.pipe.length < s.pipe.length ∧
      consumeBody kernel timeout s = .inl s' := by
  have hclock : ((kernel.clock (s.reads + 1) - kernel.clock 0 : ℤ) : ℚ) < timeout ↔
      InTime kernel timeout s.dataLen := by
    rw [h.reads, InTime]
  unfold RadioChatter.Radio.consumeBody
  by_cases htime : InTime kernel timeout s.dataLen
  · right
    rw [if_pos (hclock.mpr htime)]
    obtain ⟨s₁, hresize, h₁, hlen, hroom⟩ | ⟨hresize, hlast⟩ := h.resize
    · right
      rw [hresize]
      rw [← hlen] at hroom htime
      have hpipe : s₁.pipe.length = s.pipe.length := by rw [h.pipe, h₁.pipe, hlen]
      have hresult : (kernel.grant s₁.reads).read s₁.pipe =
          (kernel.grant s₁.dataLen).read (pipeAt kernel stream s₁.dataLen) := by
        rw [h₁.reads, h₁.pipe]
      dsimp only
      rw [hresult]
      by_cases hbytes : bytesAt kernel stream s₁.dataLen = []
      · left
        have hfail := (readResult_pos_iff kernel stream s₁.dataLen).not.mpr
          (not_not.mpr hbytes)
        rw [if_pos (not_lt.mp hfail)]
        exact ⟨s₁, h₁, hroom.trans_le h₁.le_lastCap, hbytes, rfl⟩
      · right
        have hread := (readResult_pos_iff kernel stream s₁.dataLen).mpr
          hbytes
        obtain ⟨s₂, hstore, h₂, hlt⟩ := h₁.store hroom htime hbytes
        rw [bytesAt] at hstore
        rw [if_neg (not_le.mpr hread), hstore]
        exact ⟨s₂, h₂, hpipe ▸ hlt, rfl⟩
    · left
      rw [hresize]
      exact ⟨htime, hlast, rfl⟩
  · left
    rw [if_neg (hclock.not.mpr htime)]
    exact ⟨htime, rfl⟩

/-- An iteration that goes on has taken bytes from the pipe. -/
theorem Captured.step {s s' : Capture} (h : Captured kernel timeout stream s)
    (hbody : RadioChatter.Radio.consumeBody kernel timeout s = .inl s') :
    Captured kernel timeout stream s' ∧ s'.pipe.length < s.pipe.length := by
  obtain ⟨-, hstop⟩ | ⟨-, -, hstop⟩ | ⟨t, -, -, -, hstop⟩ | ⟨t, ht, hlt, hgo⟩ := h.consumeBody
  · cases hstop.symm.trans hbody
  · cases hstop.symm.trans hbody
  · cases hstop.symm.trans hbody
  · obtain rfl := Sum.inl.inj (hgo.symm.trans hbody)
    exact ⟨ht, hlt⟩

/-- Where the loop is left, and why. -/
def Stopped (kernel : Kernel) (timeout : ℚ) (stream : List UInt8) :
    Except Fault Capture → Prop
  | .ok s => Captured kernel timeout stream s ∧
      (¬ InTime kernel timeout s.dataLen ∨
        bytesAt kernel stream s.dataLen = [] ∧ s.dataLen + 1 < lastCap)
  | .error _ => Reached kernel timeout stream (lastCap - 1)

/-- A loop that is entered with the last capacity full has got that far. -/
theorem Captured.reached_of_full {s : Capture} (h : Captured kernel timeout stream s)
    (htime : InTime kernel timeout s.dataLen) (hlast : s.dataLen + 1 = lastCap) :
    Reached kernel timeout stream (lastCap - 1) := by
  rw [← hlast, Nat.add_sub_cancel]
  refine ⟨?_, fun k hk => (h.past k hk).2⟩
  intro k hk
  obtain hlt | rfl := Nat.lt_or_eq_of_le hk
  · exact (h.past k hlt).1
  · exact htime

theorem Captured.exit {s : Capture} {outcome : Except Fault Capture}
    (h : Captured kernel timeout stream s)
    (hbody : RadioChatter.Radio.consumeBody kernel timeout s = .inr outcome) :
    Stopped kernel timeout stream outcome := by
  obtain ⟨hclock, hstop⟩ | ⟨htime, hlast, hstop⟩ | ⟨t, ht, hlt, hbytes, hstop⟩ | ⟨t, -, -, hgo⟩ :=
    h.consumeBody
  · obtain rfl := Sum.inr.inj (hstop.symm.trans hbody)
    exact ⟨h, .inl hclock⟩
  · obtain rfl := Sum.inr.inj (hstop.symm.trans hbody)
    exact h.reached_of_full htime hlast
  · obtain rfl := Sum.inr.inj (hstop.symm.trans hbody)
    exact ⟨ht, .inr ⟨hbytes, hlt⟩⟩
  · cases hgo.symm.trans hbody

/-- The capture ends: every read that goes on takes a byte from the pipe. -/
theorem consume_stopped (kernel : Kernel) (timeout : ℚ) {fuel : ℕ} {stream : List UInt8}
    (hfuel : stream.length < fuel) :
    ∃ outcome, BoundedLoop.run (RadioChatter.Radio.consumeBody kernel timeout) fuel
        (newCapture stream) = some outcome ∧ Stopped kernel timeout stream outcome := by
  obtain ⟨outcome, hrun⟩ := BoundedLoop.run_terminates
    (Captured kernel timeout stream) (fun s => s.pipe.length)
    (fun _ _ hs hbody => hs.step hbody) captured_newCapture hfuel
  refine ⟨outcome, hrun, ?_⟩
  exact BoundedLoop.run_invariant (Captured kernel timeout stream) (Stopped kernel timeout stream)
    (fun _ _ hs hbody => (hs.step hbody).1) (fun _ _ hs hbody => hs.exit hbody)
    captured_newCapture hrun

theorem Captured.take_radioData {s : Capture} (h : Captured kernel timeout stream s) :
    s.radioData.take (sampleSize * s.dataLen) =
      (List.range s.dataLen).flatMap (sampleBytes kernel stream) := by
  rw [h.data, List.take_left' (length_flatMap_sampleBytes kernel stream s.dataLen)]

/-- A read that was made and delivered bytes is one of those that count. -/
theorem lt_dataLen_of_reached {s : Capture} (hstop : Stopped kernel timeout stream (.ok s))
    {n : ℕ} (hn : Reached kernel timeout stream n) (hbytes : bytesAt kernel stream n ≠ []) :
    n < s.dataLen := by
  by_contra hle
  obtain ⟨-, hclock | ⟨hempty, -⟩⟩ := hstop
  · exact hclock (hn.1 s.dataLen (not_lt.mp hle))
  · obtain hlt | heq := Nat.lt_or_eq_of_le (not_lt.mp hle)
    · exact hn.2 s.dataLen hlt hempty
    · exact hbytes (heq ▸ hempty)

/-- A capture that returns has not reached the capacity that cannot be doubled. -/
theorem not_reached_lastCap {s : Capture} (hstop : Stopped kernel timeout stream (.ok s)) :
    ¬ Reached kernel timeout stream (lastCap - 1) := by
  intro hlast
  obtain ⟨h, hclock | ⟨hempty, hlt⟩⟩ := hstop
  · have hle : s.dataLen + 1 ≤ lastCap := h.room.trans h.le_lastCap
    exact hclock (hlast.1 s.dataLen (by omega))
  · exact hlast.2 s.dataLen (by omega) hempty

theorem Captured.reached {s : Capture} (h : Captured kernel timeout stream s) {k : ℕ}
    (hk : k < s.dataLen) : Reached kernel timeout stream k := by
  refine ⟨?_, ?_⟩
  · intro i hi
    exact (h.past i (by omega)).1
  · intro i hi
    exact (h.past i (by omega)).2

end Kernel

/-- **What a capture returns.** It always returns, and the samples are those of
the stream exactly when no read that is made delivers a single byte and the
buffer never has to grow beyond an `int`. -/
theorem consumeRadioOutput_faithful_iff (kernel : Kernel) (timeout : ℚ) {fuel : ℕ}
    {stream : List UInt8} (hfuel : stream.length < fuel) :
    ∃ outcome, consumeRadioOutput kernel timeout fuel stream = some outcome ∧
      (Faithful stream outcome ↔
        (∀ n, Reached kernel timeout stream n → (bytesAt kernel stream n).length ≠ 1) ∧
        ¬ Reached kernel timeout stream (lastCap - 1)) := by
  obtain ⟨outcome, hrun, hstop⟩ := consume_stopped kernel timeout hfuel
  refine ⟨outcome.map fun s => (s.dataLen, s.radioData),
    by rw [consumeRadioOutput, hrun, Option.map_some], ?_⟩
  cases outcome with
  | error fault =>
      constructor
      · rintro ⟨dataLen, radioData, hok, -⟩
        cases hok
      · rintro ⟨-, hlast⟩
        exact absurd hstop hlast
  | ok s =>
      obtain ⟨h, -⟩ := id hstop
      constructor
      · rintro ⟨dataLen, radioData, hok, -, hsamples⟩
        obtain ⟨rfl, rfl⟩ := Prod.mk.inj (Except.ok.inj hok)
        refine ⟨?_, not_reached_lastCap hstop⟩
        intro n hn hshort
        have hbytes : bytesAt kernel stream n ≠ [] := by
          intro hempty
          rw [hempty] at hshort
          cases hshort
        rw [h.take_radioData] at hsamples
        exact flatMap_sampleBytes_of_short (lt_dataLen_of_reached hstop hn hbytes) hshort _ hsamples
      · rintro ⟨hwhole, -⟩
        have hall : ∀ k < s.dataLen, (bytesAt kernel stream k).length = sampleSize := by
          intro k hk
          have hne := hwhole k (h.reached hk)
          have hle := length_bytesAt_le kernel stream k
          have hpos := List.length_pos_iff.mpr (h.past k hk).2
          rw [sampleSize] at hle ⊢
          omega
        obtain ⟨-, hle, hsamples⟩ := flatMap_sampleBytes_of_whole hall
        exact ⟨s.dataLen, s.radioData, rfl, hle, h.take_radioData.trans hsamples⟩

/-- A stream of four bytes, the first of which arrives alone. -/
theorem consumeRadioOutput_one_byte :
    (consumeRadioOutput ⟨fun n => if n = 0 then .one else .two, fun _ => 0⟩ 3 5
        [1, 2, 3, 4]).map (fun outcome => outcome.map fun r => (r.1, r.2.take 6)) =
      some (.ok (3, [some 1, none, some 2, some 3, some 4, none])) ∧
    ∀ outcome ∈ consumeRadioOutput ⟨fun n => if n = 0 then .one else .two, fun _ => 0⟩ 3 5
      [1, 2, 3, 4], ¬ Faithful [1, 2, 3, 4] outcome := by
  decide +kernel

/-- The same stream in whole samples, with a clock that leaves time for two. -/
theorem consumeRadioOutput_faithful_iff_two :
    ∃ outcome, consumeRadioOutput ⟨fun _ => .two, fun n => n⟩ 3 5 [1, 2, 3, 4] = some outcome ∧
      Faithful [1, 2, 3, 4] outcome := by
  obtain ⟨outcome, hrun, hiff⟩ := consumeRadioOutput_faithful_iff ⟨fun _ => .two, fun n => n⟩ 3
    (show ([1, 2, 3, 4] : List UInt8).length < 5 by decide)
  refine ⟨outcome, hrun, hiff.mpr ⟨?_, ?_⟩⟩
  · intro n hn
    have htime : InTime ⟨fun _ => .two, fun n => n⟩ 3 n := hn.1 n (le_refl n)
    have hlt : n < 2 := by
      simp only [InTime] at htime
      norm_num at htime
      have hcast : (n : ℚ) < 2 := by linarith
      exact_mod_cast hcast
    interval_cases n <;> decide
  · intro hlast
    have htime := hlast.1 3 (by decide)
    norm_num [InTime] at htime

end RadioChatter.Radio
