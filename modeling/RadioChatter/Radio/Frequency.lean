import RadioChatter.Input.ScanOptions

/-!
The frequency of a scan as a text for `rtl_fm`.

The buffer is as long as the unsigned number has digits, and `sprintf` prints
the number with a sign. The two agree on the numbers that are positive in both
readings.
-/

namespace RadioChatter.Radio

open Checked CString Input

/-- What `%d` prints. -/
def percentD (n : ℤ) : List Char :=
  if n < 0 then '-' :: Nat.toDigits 10 n.natAbs else Nat.toDigits 10 n.natAbs

/-- The loop that counts digits. -/
def countDigits (tmpFreq freqLen : ℕ) : ℕ :=
  if 0 < tmpFreq then countDigits (tmpFreq / 10) (freqLen + 1) else freqLen
termination_by tmpFreq

/-- The buffer `freq_str` after `sprintf`, which reads the frequency as an `int`. -/
def freqStr (freq : UInt32) : Except Fault Buffer :=
  strcpy (malloc (countDigits freq.toNat 0 + 1)) (percentD (CInt.wrap freq.toNat))

/-- The array `modes`, in the order of the enumeration. -/
def modes : DemodMode → List Char
  | .fm => "fm".toList
  | .wbfm => "wbfm".toList
  | .am => "am".toList

/-- The array `args`. -/
def rtlFmArgs (freqStr : List Char) (demodMode : DemodMode) : List (List Char) :=
  ["rtl_fm".toList, "-f".toList, freqStr, "-M".toList, modes demodMode, "-s".toList,
    "170k".toList, "-r".toList, "16k".toList]

/-- `radio_scan_single_freq`, up to the start of `rtl_fm`. -/
def radioScanSingleFreq (freq : UInt32) (demodMode : DemodMode) :
    Except Fault (List (List Char)) :=
  ((freqStr freq).bind contents).map (rtlFmArgs · demodMode)

/-- The `switch` of `main`: what a scan of a single frequency is called with. -/
def scannedFreq (input : ProgramInput) : Option (UInt32 × DemodMode) :=
  match input.subcommand with
  | .help => none
  | .scan =>
      if input.freqStart = input.freqEnd then some (.ofNat input.freqStart, input.demodMode)
      else none

/-! ### Digits -/

theorem nul_not_mem_toDigits (n : ℕ) : nul ∉ Nat.toDigits 10 n := by
  intro hmem
  have hdigit : nul.isDigit = true := Nat.isDigit_of_mem_toDigits (by decide) (by decide) hmem
  cases hdigit

theorem nul_not_mem_percentD (n : ℤ) : nul ∉ percentD n := by
  unfold percentD
  split
  · rw [List.mem_cons, not_or]
    exact ⟨by decide, nul_not_mem_toDigits _⟩
  · exact nul_not_mem_toDigits _

@[simp] theorem percentD_natCast (n : ℕ) : percentD n = Nat.toDigits 10 n := by
  rw [percentD, if_neg (by omega), Int.natAbs_natCast]

/-- A number with a sign is not printed as any number without one. -/
theorem percentD_ne_toDigits {n : ℤ} (h : n < 0) (m : ℕ) : percentD n ≠ Nat.toDigits 10 m := by
  intro heq
  have hmem : '-' ∈ Nat.toDigits 10 m := by
    rw [← heq, percentD, if_pos h]
    exact List.mem_cons_self
  have hdigit : '-'.isDigit = true := Nat.isDigit_of_mem_toDigits (by decide) (by decide) hmem
  cases hdigit

/-- The loop counts the digits of a positive number. -/
theorem countDigits_of_pos {n : ℕ} (h : 0 < n) (freqLen : ℕ) :
    countDigits n freqLen = freqLen + (Nat.toDigits 10 n).length := by
  induction n using Nat.strongRecOn generalizing freqLen with
  | ind n ih =>
      rw [countDigits, if_pos h, Nat.toDigits_eq_if (by decide)]
      split
      next hlt =>
        have hzero : n / 10 = 0 := Nat.div_eq_of_lt hlt
        rw [hzero, countDigits, if_neg (Nat.lt_irrefl 0), List.length_singleton]
      next hle =>
        rw [ih (n / 10) (by omega) (by omega), List.length_append, List.length_singleton]
        omega

/-- The loop counts none for 0. -/
@[simp] theorem countDigits_zero (freqLen : ℕ) : countDigits 0 freqLen = freqLen := by
  rw [countDigits, if_neg (Nat.lt_irrefl 0)]

/-! ### The text of a frequency -/

theorem freqStr_of_lt {freq : UInt32}
    (h : (percentD (CInt.wrap freq.toNat)).length ≤ countDigits freq.toNat 0) :
    ∃ rest, freqStr freq = .ok (holding (percentD (CInt.wrap freq.toNat)) rest) := by
  refine ⟨_, strcpy_of_lt ?_⟩
  rw [length_malloc]
  omega

theorem freqStr_of_le {freq : UInt32}
    (h : countDigits freq.toNat 0 < (percentD (CInt.wrap freq.toNat)).length) :
    freqStr freq = .error .outOfBounds := by
  rw [freqStr, strcpy_of_le]
  rw [length_malloc]
  exact Nat.succ_le_of_lt h

/-- What `rtl_fm` is given, or the overflow of the buffer. -/
theorem radioScanSingleFreq_eq (freq : UInt32) (demodMode : DemodMode) :
    radioScanSingleFreq freq demodMode =
      if (percentD (CInt.wrap freq.toNat)).length ≤ countDigits freq.toNat 0 then
        .ok (rtlFmArgs (percentD (CInt.wrap freq.toNat)) demodMode)
      else .error .outOfBounds := by
  unfold radioScanSingleFreq
  split
  next h =>
    obtain ⟨rest, hbuffer⟩ := freqStr_of_lt h
    rw [hbuffer, Except.bind, contents_holding (nul_not_mem_percentD _), Except.map]
  next h =>
    rw [freqStr_of_le (Nat.lt_of_not_le h), Except.bind, Except.map]

theorem rtlFmArgs_inj {text text' : List Char} {demodMode : DemodMode}
    (h : rtlFmArgs text demodMode = rtlFmArgs text' demodMode) : text = text' := by
  injection h with _ h
  injection h with _ h
  injection h

/-- **The frequency of `rtl_fm`** is the decimal numeral of the frequency, in a
buffer that is long enough, for the positive numbers below 2 ^ 31. -/
theorem radioScanSingleFreq_iff (freq : UInt32) (demodMode : DemodMode) :
    radioScanSingleFreq freq demodMode =
        .ok (rtlFmArgs (Nat.toDigits 10 freq.toNat) demodMode) ↔
      0 < freq.toNat ∧ freq.toNat < 2 ^ 31 := by
  have hbound : freq.toNat < 2 ^ 32 := freq.toNat_lt
  rw [radioScanSingleFreq_eq]
  constructor
  · intro h
    split at h
    next hfits =>
      have htext := rtlFmArgs_inj (Except.ok.inj h)
      have hnonneg : 0 ≤ CInt.wrap freq.toNat := by
        by_contra hneg
        exact percentD_ne_toDigits (by omega) _ htext
      have hlt : freq.toNat < 2 ^ 31 := by
        by_contra hle
        rw [CInt.wrap_of_le (by omega) (by omega)] at hnonneg
        omega
      refine ⟨?_, hlt⟩
      by_contra hzero
      have hfreq : freq.toNat = 0 := by omega
      rw [htext, hfreq, countDigits_zero] at hfits
      exact absurd hfits (by decide)
    · cases h
  · rintro ⟨hpos, hlt⟩
    have hwrap : CInt.wrap freq.toNat = freq.toNat := CInt.wrap_of_lt (by omega) (by omega)
    rw [hwrap, percentD_natCast, countDigits_of_pos hpos, if_pos (by omega)]

/-- The scan of this frequency is accepted and comes to the result `r`, which is
not the decimal numeral. -/
def Garbles (range : List Char) (freq : UInt32) (r : Except Fault (List (List Char))) : Prop :=
  ∃ input g, parseProgramInput exactArithmetic false Getopt.fresh
      ["rcs".toList, "scan".toList, range, "fm".toList] = some (.ok (some input, g)) ∧
    scannedFreq input = some (freq, .fm) ∧ radioScanSingleFreq freq .fm = r ∧
    r ≠ .ok (rtlFmArgs (Nat.toDigits 10 freq.toNat) .fm)

/-- The scan leaves `getopt` in front of the first element again. -/
theorem garbles {range : List Char} {freq : UInt32} {r : Except Fault (List (List Char))}
    (hparse : parseProgramInput exactArithmetic false Getopt.fresh
        ["rcs".toList, "scan".toList, range, "fm".toList] =
      some (.ok (some { defaultProgramInput with
        subcommand := .scan, freqStart := freq.toNat, freqEnd := freq.toNat },
        { passed 4 with optind := 1 })))
    (hr : radioScanSingleFreq freq .fm = r)
    (hne : r ≠ .ok (rtlFmArgs (Nat.toDigits 10 freq.toNat) .fm)) : Garbles range freq r := by
  refine ⟨_, _, hparse, ?_, hr, hne⟩
  simp [scannedFreq, defaultProgramInput]

/-- 3 GHz overflow the buffer, 4 GHz are printed as a negative number, and half a
hertz is 0, for which there is no digit in the buffer. -/
theorem garbles_edges :
    Garbles "3000M".toList 3000000000 (.error .outOfBounds) ∧
      Garbles "4000M".toList 4000000000 (.ok (rtlFmArgs "-294967296".toList .fm)) ∧
      Garbles "0.5".toList 0 (.error .outOfBounds) :=
  ⟨garbles (by decide +kernel) (by decide +kernel) (by decide +kernel),
    garbles (by decide +kernel) (by decide +kernel) (by decide +kernel),
    garbles (by decide +kernel) (by decide +kernel) (by decide +kernel)⟩

end RadioChatter.Radio
