import RadioChatter.Db.Store

/-!
The samples in the buffer of a capture.

The detector reads the buffer as numbers of two bytes, the low one first. A byte
that nothing has written is whatever the heap has held at its place.
-/

namespace RadioChatter.Radio

open Db

/-- The sample that two bytes make. -/
def sampleOf (low high : UInt8) : Int16 :=
  (UInt16.ofNat (low.toNat + 2 ^ 8 * high.toNat)).toInt16

/-- A byte of the buffer; the `heap` has the bytes that were never written. -/
def byteAt (heap : ℕ → UInt8) (radioData : List (Option UInt8)) (i : ℕ) : UInt8 :=
  (radioData.getD i none).getD (heap i)

/-- The first `dataLen` samples of the buffer. -/
def samplesIn (heap : ℕ → UInt8) (dataLen : ℕ) (radioData : List (Option UInt8)) : List Int16 :=
  (List.range dataLen).map fun i =>
    sampleOf (byteAt heap radioData (2 * i)) (byteAt heap radioData (2 * i + 1))

@[simp] theorem length_samplesIn (heap : ℕ → UInt8) (dataLen : ℕ)
    (radioData : List (Option UInt8)) :
    (samplesIn heap dataLen radioData).length = dataLen := by
  simp [samplesIn]

/-- The bytes of a sample make that sample. -/
@[simp] theorem sampleOf_bytes (sample : Int16) :
    sampleOf sample.toUInt16.toUInt8 (sample.toUInt16 >>> 8).toUInt8 = sample := by
  have hlt : sample.toUInt16.toNat < 2 ^ 16 := sample.toUInt16.toNat_lt
  have hlow : sample.toUInt16.toUInt8.toNat = sample.toUInt16.toNat % 2 ^ 8 := by simp
  have hhigh : (sample.toUInt16 >>> 8).toUInt8.toNat = sample.toUInt16.toNat / 2 ^ 8 := by
    simp [Nat.shiftRight_eq_div_pow]
    omega
  rw [sampleOf, hlow, hhigh, Nat.mod_add_div, UInt16.ofNat_toNat]
  simp

/-- Two bytes are those of the sample that they make. -/
@[simp] theorem sampleBytes_sampleOf (low high : UInt8) :
    Db.sampleBytes (sampleOf low high) = [low, high] := by
  have hlow : low.toNat < 2 ^ 8 := low.toNat_lt
  have hhigh : high.toNat < 2 ^ 8 := high.toNat_lt
  have hnat : (sampleOf low high).toUInt16.toNat = low.toNat + 2 ^ 8 * high.toNat := by
    rw [sampleOf, UInt16.toUInt16_toInt16, UInt16.toNat_ofNat']
    omega
  rw [Db.sampleBytes, List.cons.injEq, List.cons.injEq]
  refine ⟨?_, ?_, rfl⟩
  · rw [← UInt8.toNat_inj, UInt16.toNat_toUInt8, hnat]
    omega
  · rw [← UInt8.toNat_inj, UInt16.toNat_toUInt8, UInt16.toNat_shiftRight, hnat]
    simp [Nat.shiftRight_eq_div_pow]
    omega

theorem getElem?_dataBytes (data : List Int16) (i : ℕ) :
    (dataBytes data)[2 * i]? = data[i]?.map (fun x : Int16 => x.toUInt16.toUInt8) ∧
      (dataBytes data)[2 * i + 1]? =
        data[i]?.map (fun x : Int16 => (x.toUInt16 >>> 8).toUInt8) := by
  induction data generalizing i with
  | nil => simp [dataBytes]
  | cons x data ih =>
      have hcons : dataBytes (x :: data) = Db.sampleBytes x ++ dataBytes data := rfl
      cases i with
      | zero => exact ⟨rfl, rfl⟩
      | succ i =>
          rw [hcons, Db.sampleBytes, Nat.mul_succ]
          exact ih i

/-- Whole samples are the bytes of a list of samples. -/
theorem exists_dataBytes {bytes : List UInt8} (h : 2 ∣ bytes.length) :
    ∃ data, dataBytes data = bytes := by
  obtain ⟨n, hn⟩ := h
  induction n generalizing bytes with
  | zero => exact ⟨[], (List.length_eq_zero_iff.mp hn).symm⟩
  | succ n ih =>
      match bytes, hn with
      | low :: high :: bytes, hn =>
          simp only [List.length_cons] at hn
          obtain ⟨data, rfl⟩ := ih (show bytes.length = 2 * n by omega)
          refine ⟨sampleOf low high :: data, ?_⟩
          show Db.sampleBytes (sampleOf low high) ++ dataBytes data = _
          rw [sampleBytes_sampleOf]
          rfl

/-- A buffer that holds the first samples of a stream is read as these samples,
whatever was on the heap. -/
theorem samplesIn_of_take {heap : ℕ → UInt8} {n : ℕ} {radioData : List (Option UInt8)}
    {data : List Int16}
    (h : radioData.take (2 * n) = ((dataBytes data).take (2 * n)).map some)
    (hle : 2 * n ≤ (dataBytes data).length) :
    samplesIn heap n radioData = data.take n := by
  have hbyte : ∀ k < 2 * n, byteAt heap radioData k = (dataBytes data).getD k 0 := by
    intro k hk
    have hget := congrArg (fun l => l[k]?) h
    simp only [List.getElem?_take_of_lt hk, List.getElem?_map] at hget
    rw [byteAt, List.getD_eq_getElem?_getD, hget, List.getD_eq_getElem?_getD,
      List.getElem?_eq_getElem (by omega)]
    rfl
  rw [length_dataBytes] at hle
  apply List.ext_getElem
  · rw [length_samplesIn, List.length_take]
    omega
  · intro i hi hi'
    rw [length_samplesIn] at hi
    have hdata : i < data.length := by omega
    obtain ⟨hlow, hhigh⟩ := getElem?_dataBytes data i
    rw [List.getElem?_eq_getElem hdata, Option.map_some] at hlow hhigh
    simp only [samplesIn, List.getElem_map, List.getElem_range, List.getElem_take]
    rw [hbyte _ (by omega), hbyte _ (by omega), List.getD_eq_getElem?_getD, hlow,
      List.getD_eq_getElem?_getD, hhigh]
    exact sampleOf_bytes _

end RadioChatter.Radio
