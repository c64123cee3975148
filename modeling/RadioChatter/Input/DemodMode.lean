import RadioChatter.Lib.CString
import RadioChatter.Input.FrequencyRange

/-!
The demodulation mode of a command line, as `check_scan_command` reads it from
a buffer that is just large enough for the longest mode. Each `Char` of an argument
stands for one of its bytes.
-/

namespace RadioChatter.Input

open Checked CString

/-- `LARGEST_DEMOD_MODE_LEN`. -/
def largestDemodModeLen : ℕ := 4

def DemodMode.text : DemodMode → List Char
  | .fm => ['f', 'm']
  | .wbfm => ['w', 'b', 'f', 'm']
  | .am => ['a', 'm']

/-- The mode that `check_scan_command` finds in its argument, if any. -/
def demodMode (arg : List Char) : Except Fault (Option DemodMode) := do
  let buffer ← strncpy (malloc (largestDemodModeLen + 1)) arg (largestDemodModeLen + 1)
  let buffer ← mapString Char.toLower buffer
  if ← equals buffer DemodMode.am.text then
    pure (some .am)
  else if ← equals buffer DemodMode.fm.text then
    pure (some .fm)
  else if ← equals buffer DemodMode.wbfm.text then
    pure (some .wbfm)
  else
    pure none

/-- Every access stays inside the buffer, and the mode is the one that the
whole argument spells in some case. -/
def ModeRead (arg : List Char) (outcome : Except Fault (Option DemodMode)) : Prop :=
  ∃ result, outcome = .ok result ∧ ∀ mode, result = some mode ↔ arg.map Char.toLower = mode.text

theorem nul_not_mem_text (mode : DemodMode) : nul ∉ mode.text := by
  cases mode <;> decide

theorem toLower_ne_nul {c : Char} (h : c ≠ nul) : c.toLower ≠ nul := by
  by_cases hsmall : c.toNat < 65
  · rwa [C99.toLower_eq_self hsmall]
  · intro hlower
    unfold Char.toLower at hlower
    split at hlower
    next hupper =>
      -- The sum does not wrap around to zero.
      have hval : (c.val + ('a'.val - 'A'.val)).toNat = 0 := congrArg Char.toNat hlower
      have hle := hupper.2
      simp only [UInt32.le_iff_toNat_le] at hle
      have hZ : 'Z'.val.toNat = 90 := rfl
      have hstep : ('a'.val - 'A'.val).toNat = 32 := rfl
      have hc : c.toNat = c.val.toNat := rfl
      rw [UInt32.toNat_add] at hval
      omega
    · exact h hlower

theorem nul_not_mem_map_toLower {s : List Char} (h : nul ∉ s) : nul ∉ s.map Char.toLower := by
  rw [List.mem_map]
  rintro ⟨c, hc, hlower⟩
  exact toLower_ne_nul (fun heq => h (heq ▸ hc)) hlower

/-- The comparisons in their order. -/
theorem demodMode_of_le {arg : List Char} (h : nul ∉ arg)
    (hlen : arg.length ≤ largestDemodModeLen) :
    demodMode arg = .ok (
      if arg.map Char.toLower = DemodMode.am.text then some .am
      else if arg.map Char.toLower = DemodMode.fm.text then some .fm
      else if arg.map Char.toLower = DemodMode.wbfm.text then some .wbfm
      else none) := by
  have hlower := nul_not_mem_map_toLower h
  rw [demodMode, strncpy_of_lt (length_malloc _) (Nat.lt_succ_of_le hlen)]
  simp only [bind, Except.bind, mapString_holding _ h, equals_holding hlower (nul_not_mem_text _),
    decide_eq_true_eq]
  split
  · rfl
  · split
    · rfl
    · split <;> rfl

/-- A longer argument fills the buffer, and no terminator stops the loop. -/
theorem demodMode_of_lt {arg : List Char} (h : nul ∉ arg)
    (hlen : largestDemodModeLen < arg.length) :
    demodMode arg = .error .outOfBounds := by
  have htake : nul ∉ arg.take (largestDemodModeLen + 1) := fun hmem => h (List.mem_of_mem_take hmem)
  rw [demodMode, strncpy_of_le (length_malloc _) hlen]
  simp only [bind, Except.bind, mapString_unterminated _ htake]

/-- **Reading the mode.** It works on the arguments that leave room for the
terminator, and on no other one. -/
theorem modeRead_demodMode_iff {arg : List Char} (h : nul ∉ arg) :
    ModeRead arg (demodMode arg) ↔ arg.length ≤ largestDemodModeLen := by
  constructor
  · rintro ⟨result, hresult, -⟩
    by_contra hlen
    rw [demodMode_of_lt h (not_le.mp hlen)] at hresult
    cases hresult
  · intro hlen
    refine ⟨_, demodMode_of_le h hlen, ?_⟩
    intro mode
    split
    next hmode => cases mode <;> simp [hmode, DemodMode.text]
    · split
      next hmode => cases mode <;> simp [hmode, DemodMode.text]
      · split
        next hmode => cases mode <;> simp [hmode, DemodMode.text]
        · cases mode <;> simp_all

theorem modeRead_demodMode_iff_wbfm : ModeRead "WbFM".toList (demodMode "WbFM".toList) :=
  (modeRead_demodMode_iff (by decide)).mpr (by decide)

/-- One character more than the longest mode. -/
theorem demodMode_wbfmx :
    nul ∉ "wbfmx".toList ∧ demodMode "wbfmx".toList = .error .outOfBounds ∧
      ¬ ModeRead "wbfmx".toList (demodMode "wbfmx".toList) := by
  refine ⟨by decide, by decide, ?_⟩
  rintro ⟨result, hresult, -⟩
  cases hresult

end RadioChatter.Input
