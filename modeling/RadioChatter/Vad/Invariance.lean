import RadioChatter.Vad.SingleVerdict

/-!
What silence around an utterance does to the verdict, at 16 kHz.

The length filter takes the padding off both ends of an interval. An interval
that starts at the first window was never padded in front, since its start
stops at sample 0, and one that is still open when the capture ends was never
padded behind, nor cut back to where its last silence began. Silence put in
front of the capture, or appended to it, moves a segment from one of these
formulas to another; the theorems say for exactly which inputs that changes
the verdict. Padding is taken off at multiples of 512 samples, where rounding
cannot change the comparison with the minimum; the end of a capture can lie
anywhere, and of that the float is taken.
-/

namespace RadioChatter.Vad

open BinaryFloat Checked Hysteresis VadIterator

/-- The threshold in use. -/
def half : Single := ⟨0.5, 1, -1, by decide, by decide, by norm_num⟩

/-- The detector that `radio_scan_single_freq` creates. -/
def sixteenKilohertz (threshold : Single) : VadIterator := rcsVadCreate 16000 threshold

section SixteenKilohertz

variable {t : Single}

theorem toParams_sixteenKilohertz :
    (sixteenKilohertz t).toParams = ⟨1600, 480, 512, 4000, 64, 576, (1, 576), [16000]⟩ := rfl

theorem windowSizeSamples_pos : 0 < (sixteenKilohertz t).windowSizeSamples := by
  simp [toParams_sixteenKilohertz]

/-! ### Sample counts as floats -/

theorem single_exponent_le_iff {n : ℤ} (hn : n ≠ 0) {k : ℕ} :
    single.exponent (n : ℚ) ≤ k ↔ |n| < 2 ^ (k + 24) := by
  have hmin : single.minExponent ≤ k := (by decide : (-149 : ℤ) ≤ 0).trans (Int.natCast_nonneg k)
  rw [single.exponent_le_iff (Int.cast_ne_zero.mpr hn) hmin]
  have hpow : (2 : ℚ) ^ ((k : ℤ) + single.precision) = (2 ^ (k + 24) : ℤ) := by
    rw [show ((k : ℤ) + single.precision : ℤ) = ((k + 24 : ℕ) : ℤ) from rfl, zpow_natCast]
    push_cast
    rfl
  rw [hpow, ← Int.cast_abs, Int.cast_lt]

/-- A multiple of 32 is kept below `2 ^ 29`. -/
theorem toFloat_of_lt {n : ℤ} (hn : n % 32 = 0) (h : |n| < 2 ^ 29) : toFloat n = n := by
  by_cases hzero : n = 0
  · rw [hzero, toFloat, Int.cast_zero, single.round_zero]
  have hmul : (n : ℚ) = (n / 32 : ℤ) * 2 ^ (5 : ℤ) := by
    have hsplit : n = n / 32 * 2 ^ 5 := by omega
    nth_rewrite 1 [hsplit]
    push_cast
    rfl
  have hexp : single.exponent (n : ℚ) ≤ (5 : ℕ) := (single_exponent_le_iff hzero).mpr h
  rw [toFloat]
  rw [hmul] at hexp ⊢
  exact single.round_of_exponent_le hexp

/-- From there on, what is beside a multiple of 512 by 32 becomes that multiple. -/
theorem toFloat_of_ge {n r : ℤ} (hr : |r| ≤ 32) (hlow : 2 ^ 29 ≤ |n * 512 + r|)
    (hhigh : |n * 512 + r| < 2 ^ 33) : toFloat (n * 512 + r) = n * 512 := by
  have hne : n * 512 + r ≠ 0 := by
    intro hzero
    rw [hzero] at hlow
    norm_num at hlow
  have hcast : ((n * 512 + r : ℤ) : ℚ) = (n : ℚ) * 2 ^ (9 : ℤ) + r := by
    push_cast
    norm_num
  have habove : (5 : ℤ) < single.exponent ((n * 512 + r : ℤ) : ℚ) := by
    by_contra hle
    have hlt := (single_exponent_le_iff (k := 5) hne).mp (not_lt.mp hle)
    omega
  have hbelow : single.exponent ((n * 512 + r : ℤ) : ℚ) ≤ (9 : ℕ) :=
    (single_exponent_le_iff hne).mpr hhigh
  rw [toFloat]
  rw [hcast] at habove hbelow ⊢
  rw [single.round_of_near_grid (c := 5) _ habove hbelow (by decide)]
  · norm_num
  · rw [← Int.cast_abs]
    exact_mod_cast hr

theorem toFloat_mul_512 {n : ℕ} (h : (n : ℤ) * 512 < 2 ^ 33) : toFloat (n * 512) = n * 512 := by
  obtain hlt | hge := lt_or_ge ((n : ℤ) * 512) (2 ^ 29)
  · rw [toFloat_of_lt (by omega) (by rw [abs_lt]; omega)]
    push_cast
    rfl
  · have hround := toFloat_of_ge (n := n) (r := 0) (by norm_num) (by rw [add_zero, le_abs]; omega)
      (by rw [add_zero, abs_lt]; omega)
    rw [add_zero] at hround
    exact hround

/-- The padding that was put in front of a start is taken off it again. -/
theorem toFloat_start {i : ℕ} (h : (i : ℤ) * 512 < 2 ^ 33) :
    single.round (toFloat (i * 512 - 480) + 480) = i * 512 := by
  have hgrid := toFloat_mul_512 h
  obtain hlt | hge := lt_or_ge ((i : ℤ) * 512 - 480) (2 ^ 29)
  · rw [toFloat_of_lt (by omega) (by rw [abs_lt]; omega), ← hgrid, toFloat]
    push_cast
    ring_nf
  · have hbelow := toFloat_of_ge (n := i - 1) (r := 32) (by norm_num) (by rw [le_abs]; omega)
      (by rw [abs_lt]; omega)
    have habove := toFloat_of_ge (n := i) (r := -32) (by norm_num) (by rw [le_abs]; omega)
      (by rw [abs_lt]; omega)
    rw [show (i : ℤ) * 512 - 480 = (i - 1) * 512 + 32 by ring, hbelow]
    rw [toFloat] at habove
    push_cast at habove ⊢
    rw [← habove]
    ring_nf

/-- So is the padding behind an end. -/
theorem toFloat_stop {j : ℕ} (h : (j : ℤ) * 512 + 480 < 2 ^ 33) :
    single.round (toFloat (j * 512 + 480) - 480) = j * 512 := by
  have hgrid := toFloat_mul_512 (n := j) (by omega)
  obtain hlt | hge := lt_or_ge ((j : ℤ) * 512 + 480) (2 ^ 29)
  · rw [toFloat_of_lt (by omega) (by rw [abs_lt]; omega), ← hgrid, toFloat]
    push_cast
    ring_nf
  · have habove := toFloat_of_ge (n := j + 1) (r := -32) (by norm_num) (by rw [le_abs]; omega)
      (by rw [abs_lt]; omega)
    have hbelow := toFloat_of_ge (n := j) (r := 32) (by norm_num) (by rw [le_abs]; omega)
      (by rw [abs_lt]; omega)
    rw [show (j : ℤ) * 512 + 480 = (j + 1) * 512 + -32 by ring, habove]
    rw [toFloat] at hbelow
    push_cast at hbelow ⊢
    rw [← hbelow]
    ring_nf

/-! ### The length filter -/

/-- One window more for a segment whose start cannot be padded. -/
def missingPad (first : ℕ) : ℕ := if first = 0 then 1 else 0

/-- The end of the capture, less the padding that an open segment never got. -/
def unpaddedEnd (total : ℤ) : ℚ := single.round (toFloat total - 480)

theorem exists_unpaddedEnd (total : ℤ) : ∃ e : ℤ, unpaddedEnd total = e := by
  obtain ⟨n, hn⟩ := single.exists_round_intCast (K := ℚ) total
  rw [unpaddedEnd, toFloat, hn]
  have hcast : (n : ℚ) - 480 = (n - 480 : ℤ) := by
    push_cast
    rfl
  rw [hcast]
  exact single.exists_round_intCast _

theorem unpaddedEnd_mul_512 {n : ℕ} (h : (n : ℤ) * 512 < 2 ^ 33) :
    unpaddedEnd (n * 512) =
      ((if (n : ℤ) * 512 - 480 < 2 ^ 29 then n * 512 - 480 else (n - 1) * 512 : ℤ) : ℚ) := by
  have hcast : (n : ℚ) * 512 - 480 = ((n * 512 - 480 : ℤ) : ℚ) := by
    push_cast
    rfl
  rw [unpaddedEnd, toFloat_mul_512 h, hcast]
  split
  next hlt => exact toFloat_of_lt (by omega) (by rw [abs_lt]; omega)
  next hge =>
    have hbelow := toFloat_of_ge (n := n - 1) (r := 32) (by norm_num) (by rw [le_abs]; omega)
      (by rw [abs_lt]; omega)
    rw [show (n : ℤ) * 512 - 480 = (n - 1) * 512 + 32 by ring]
    rw [toFloat] at hbelow
    rw [hbelow]
    push_cast
    rfl

/-- The two ends without their padding are whole numbers, and so the minimum is
compared with their difference. -/
theorem longEnoughFloat_iff {total : ℤ} {g : Segment} {start stop : ℤ}
    (hstart : single.round (((sixteenKilohertz t).floatIntervalOf total g).start + 480) = start)
    (hstop : single.round (((sixteenKilohertz t).floatIntervalOf total g).stop - 480) = stop) :
    (sixteenKilohertz t).LongEnoughFloat total g ↔ start + 4000 ≤ stop := by
  have hpad : toFloat (sixteenKilohertz t).speechPadSamples = 480 :=
    toFloat_of_lt (n := 480) (by norm_num) (by norm_num)
  have hmin : toFloat (sixteenKilohertz t).minSpeechSamples = (4000 : ℤ) :=
    toFloat_eq (n := 4000) (by norm_num)
  rw [LongEnoughFloat, tooShortFloat, hpad, hstart, hstop, hmin, decide_eq_false_iff_not, not_lt,
    ← Int.cast_sub, single.le_round_intCast_iff (by decide) (by decide) (by decide)]
  omega

theorem start_add_pad {total : ℤ} {i : ℕ} {quiet : Option ℕ} (h : (i : ℤ) * 512 < 2 ^ 33) :
    single.round (((sixteenKilohertz t).floatIntervalOf total ⟨i, quiet⟩).start + 480) =
      ((i * 512 + 480 * missingPad i : ℕ) : ℤ) := by
  have hstart : ((sixteenKilohertz t).floatIntervalOf total ⟨i, quiet⟩).start =
      toFloat (max 0 (i * 512 - 480)) := rfl
  rw [hstart, missingPad]
  by_cases hfirst : i = 0
  · have hpad : toFloat 480 = (480 : ℤ) := toFloat_of_lt (by norm_num) (by norm_num)
    simp only [hfirst, if_true]
    norm_num [toFloat] at hpad ⊢
    exact hpad
  · rw [max_eq_right (by omega), toFloat_start h, if_neg hfirst]
    push_cast
    ring

theorem longEnoughFloat_closed_iff {total : ℤ} {i j : ℕ} (hi : (i : ℤ) * 512 < 2 ^ 31)
    (hj : (j : ℤ) * 512 < 2 ^ 31) :
    (sixteenKilohertz t).LongEnoughFloat total ⟨i, some j⟩ ↔ i + 8 + missingPad i ≤ j := by
  have hstop : ((sixteenKilohertz t).floatIntervalOf total ⟨i, some j⟩).stop =
      toFloat (j * 512 + 480) := rfl
  have hunpadded : single.round (((sixteenKilohertz t).floatIntervalOf total ⟨i, some j⟩).stop
      - 480) = (j * 512 : ℤ) := by
    rw [hstop, toFloat_stop (by omega)]
    push_cast
    rfl
  rw [longEnoughFloat_iff (start_add_pad (by omega)) hunpadded, missingPad]
  by_cases hfirst : i = 0 <;> simp only [hfirst, if_true, if_false] <;> omega

theorem longEnoughFloat_open_iff {total : ℤ} {i : ℕ} (hi : (i : ℤ) * 512 < 2 ^ 31) :
    (sixteenKilohertz t).LongEnoughFloat total ⟨i, none⟩ ↔
      ((i * 512 + 4000 + 480 * missingPad i : ℕ) : ℚ) ≤ unpaddedEnd total := by
  have hstop : ((sixteenKilohertz t).floatIntervalOf total ⟨i, none⟩).stop = toFloat total := rfl
  obtain ⟨stop, hunpadded⟩ := exists_unpaddedEnd total
  rw [hunpadded]
  rw [unpaddedEnd, ← hstop] at hunpadded
  rw [longEnoughFloat_iff (start_add_pad (by omega)) hunpadded,
    ← Int.cast_natCast (R := ℚ), Int.cast_le]
  push_cast
  omega

theorem longEnoughFloat_open_windows_iff {i n : ℕ} (hi : (i : ℤ) * 512 < 2 ^ 31)
    (hn : (n : ℤ) * 512 < 2 ^ 31) :
    (sixteenKilohertz t).LongEnoughFloat (n * 512) ⟨i, none⟩ ↔ i + 9 + missingPad i ≤ n := by
  rw [longEnoughFloat_open_iff hi, unpaddedEnd_mul_512 (by omega),
    ← Int.cast_natCast (R := ℚ), Int.cast_le, missingPad]
  split_ifs <;> omega

theorem map_levelFloat_low {lows : List ℚ}
    (hlows : ∀ x ∈ lows, x < (sixteenKilohertz t).lowThreshold) :
    lows.map (sixteenKilohertz t).levelFloat = List.replicate lows.length .low := by
  apply List.eq_replicate_iff.mpr
  refine ⟨List.length_map .., ?_⟩
  intro x hx
  obtain ⟨p, hp, rfl⟩ := List.mem_map.mp hx
  exact levelFloat_of_lt (v := sixteenKilohertz t) t.property (hlows p hp)

theorem bounds_of_mem_speechSegmentsFloat {p : List ℚ} {g : Segment}
    (hg : g ∈ (sixteenKilohertz t).speechSegmentsFloat p) :
    g.first < p.length ∧ ∀ j ∈ g.quiet, j < p.length := by
  rw [speechSegmentsFloat_eq windowSizeSamples_pos] at hg
  have hfirst := first_lt_of_mem_segments hg
  have hquiet := quiet_lt_of_mem_segments hg
  rw [List.length_map] at hfirst hquiet
  exact ⟨hfirst, hquiet⟩

/-! ### Silence in front of the capture -/

/-- The segment is long enough. -/
def Lasting (total : ℤ) (g : Segment) : Prop :=
  match g.quiet with
  | some j => g.first + 8 + missingPad g.first ≤ j
  | none => ((g.first * 512 + 4000 + 480 * missingPad g.first : ℕ) : ℚ) ≤ unpaddedEnd total

/-- It is behind `a` windows of silence, where its start is padded. -/
def LastingBehind (a : ℕ) (total : ℤ) (g : Segment) : Prop :=
  match g.quiet with
  | some j => g.first + 8 ≤ j
  | none => (((a + g.first) * 512 + 4000 : ℕ) : ℚ) ≤ unpaddedEnd (total + a * 512)

/-- The segment starts at the first window and misses the minimum by the padding
that its start cannot have, or it is open and the end that is rounded behind
the silence is late enough only there. -/
def Revealed (a : ℕ) (total : ℤ) (g : Segment) : Prop :=
  match g.quiet with
  | some j => g.first = 0 ∧ j = 8
  | none =>
      unpaddedEnd total < ((g.first * 512 + 4000 + 480 * missingPad g.first : ℕ) : ℚ) ∧
        (((a + g.first) * 512 + 4000 : ℕ) : ℚ) ≤ unpaddedEnd (total + a * 512)

/-- The segment is open, and the end that is rounded behind the silence is too
early. -/
def Lost (a : ℕ) (total : ℤ) (g : Segment) : Prop :=
  match g.quiet with
  | some _ => False
  | none =>
      ((g.first * 512 + 4000 + 480 * missingPad g.first : ℕ) : ℚ) ≤ unpaddedEnd total ∧
        unpaddedEnd (total + a * 512) < (((a + g.first) * 512 + 4000 : ℕ) : ℚ)

instance (total : ℤ) : DecidablePred (Lasting total)
  | ⟨_, some _⟩ => inferInstanceAs (Decidable (_ ≤ _))
  | ⟨_, none⟩ => inferInstanceAs (Decidable (_ ≤ _))

instance (a : ℕ) (total : ℤ) : DecidablePred (LastingBehind a total)
  | ⟨_, some _⟩ => inferInstanceAs (Decidable (_ ≤ _))
  | ⟨_, none⟩ => inferInstanceAs (Decidable (_ ≤ _))

instance (a : ℕ) (total : ℤ) : DecidablePred (Revealed a total)
  | ⟨_, some _⟩ => inferInstanceAs (Decidable (_ ∧ _))
  | ⟨_, none⟩ => inferInstanceAs (Decidable (_ ∧ _))

instance (a : ℕ) (total : ℤ) : DecidablePred (Lost a total)
  | ⟨_, some _⟩ => inferInstanceAs (Decidable False)
  | ⟨_, none⟩ => inferInstanceAs (Decidable (_ ∧ _))

theorem revealed_iff {a : ℕ} {total : ℤ} {g : Segment} :
    Revealed a total g ↔ LastingBehind a total g ∧ ¬ Lasting total g := by
  obtain ⟨first, quiet⟩ := g
  cases quiet with
  | none =>
      simp only [Revealed, LastingBehind, Lasting, not_le]
      exact and_comm
  | some j =>
      simp only [Revealed, LastingBehind, Lasting, missingPad]
      split <;> omega

theorem lost_iff {a : ℕ} {total : ℤ} {g : Segment} :
    Lost a total g ↔ Lasting total g ∧ ¬ LastingBehind a total g := by
  obtain ⟨first, quiet⟩ := g
  cases quiet with
  | none => simp only [Lost, LastingBehind, Lasting, not_le]
  | some j =>
      simp only [Lost, LastingBehind, Lasting, false_iff]
      omega

theorem longEnoughFloat_iff_lasting {total : ℤ} {g : Segment}
    (hfirst : (g.first : ℤ) * 512 < 2 ^ 31)
    (hquiet : ∀ j ∈ g.quiet, (j : ℤ) * 512 < 2 ^ 31) :
    (sixteenKilohertz t).LongEnoughFloat total g ↔ Lasting total g := by
  obtain ⟨first, quiet⟩ := g
  cases quiet with
  | none => exact longEnoughFloat_open_iff hfirst
  | some j => exact longEnoughFloat_closed_iff hfirst (hquiet j rfl)

theorem longEnoughFloat_shift_iff {total : ℤ} {g : Segment} {a : ℕ} (ha : a ≠ 0)
    (hfirst : ((a + g.first : ℕ) : ℤ) * 512 < 2 ^ 31)
    (hquiet : ∀ j ∈ g.quiet, ((a + j : ℕ) : ℤ) * 512 < 2 ^ 31) :
    (sixteenKilohertz t).LongEnoughFloat (total + a * 512) (g.shift a) ↔
      LastingBehind a total g := by
  obtain ⟨first, quiet⟩ := g
  have hpad : missingPad (a + first) = 0 := if_neg (by omega)
  cases quiet with
  | none =>
      rw [show Segment.shift a ⟨first, none⟩ = ⟨a + first, none⟩ from rfl,
        longEnoughFloat_open_iff hfirst, hpad]
      exact Iff.rfl
  | some j =>
      rw [show Segment.shift a ⟨first, some j⟩ = ⟨a + first, some (a + j)⟩ from rfl,
        longEnoughFloat_closed_iff hfirst (hquiet j rfl), hpad]
      simp only [LastingBehind]
      omega

theorem speechSegmentsFloat_prepend {p lows : List ℚ}
    (hlows : ∀ x ∈ lows, x < (sixteenKilohertz t).lowThreshold) :
    (sixteenKilohertz t).speechSegmentsFloat (lows ++ p) =
      ((sixteenKilohertz t).speechSegmentsFloat p).map (Segment.shift lows.length) := by
  rw [speechSegmentsFloat_eq windowSizeSamples_pos, speechSegmentsFloat_eq windowSizeSamples_pos,
    List.map_append, map_levelFloat_low hlows, segments_low_append]

/-- Silence in front of a capture whose windows an `int` can count leaves the
verdict alone, unless it reveals a segment where none is long enough, or loses
one and none is long enough behind it. -/
theorem verdictFloat_prepend_silence_iff {p lows : List ℚ} (total : ℤ)
    (hlows : ∀ x ∈ lows, x < (sixteenKilohertz t).lowThreshold)
    (hcount : ((lows.length + p.length : ℕ) : ℤ) * 512 < 2 ^ 31) :
    (sixteenKilohertz t).verdictFloat (lows ++ p) (total + lows.length * 512) =
        (sixteenKilohertz t).verdictFloat p total ↔
      lows = [] ∨
        ¬ ((∃ g ∈ (sixteenKilohertz t).speechSegmentsFloat p, Revealed lows.length total g) ∧
          ∀ g ∈ (sixteenKilohertz t).speechSegmentsFloat p, ¬ Lasting total g) ∧
        ¬ ((∃ g ∈ (sixteenKilohertz t).speechSegmentsFloat p, Lost lows.length total g) ∧
          ∀ g ∈ (sixteenKilohertz t).speechSegmentsFloat p,
            ¬ LastingBehind lows.length total g) := by
  by_cases hnil : lows = []
  · subst hnil
    simp
  have hlen : lows.length ≠ 0 := fun h => hnil (List.eq_nil_of_length_eq_zero h)
  have hbefore : ∀ g ∈ (sixteenKilohertz t).speechSegmentsFloat p,
      ((sixteenKilohertz t).LongEnoughFloat total g ↔ Lasting total g) := by
    intro g hg
    obtain ⟨hfirst, hquiet⟩ := bounds_of_mem_speechSegmentsFloat hg
    refine longEnoughFloat_iff_lasting (by omega) fun j hj => ?_
    have hj' := hquiet j hj
    omega
  have hbehind : ∀ g ∈ (sixteenKilohertz t).speechSegmentsFloat p,
      ((sixteenKilohertz t).LongEnoughFloat (total + lows.length * 512) (g.shift lows.length) ↔
        LastingBehind lows.length total g) := by
    intro g hg
    obtain ⟨hfirst, hquiet⟩ := bounds_of_mem_speechSegmentsFloat hg
    refine longEnoughFloat_shift_iff hlen (by omega) fun j hj => ?_
    have hj' := hquiet j hj
    omega
  rw [verdictFloat_eq windowSizeSamples_pos, verdictFloat_eq windowSizeSamples_pos,
    speechSegmentsFloat_prepend hlows, Except.ok.injEq, decide_eq_decide, or_iff_right hnil]
  simp only [List.mem_map, exists_exists_and_eq_and]
  rw [exists_congr fun g => and_congr_right (hbefore g),
    exists_congr fun g => and_congr_right (hbehind g)]
  simp only [revealed_iff, lost_iff]
  constructor
  · intro hiff
    constructor
    · rintro ⟨⟨g, hg, hlong, -⟩, hnone⟩
      obtain ⟨g', hg', hlong'⟩ := hiff.mp ⟨g, hg, hlong⟩
      exact hnone g' hg' hlong'
    · rintro ⟨⟨g, hg, hlong, -⟩, hnone⟩
      obtain ⟨g', hg', hlong'⟩ := hiff.mpr ⟨g, hg, hlong⟩
      exact hnone g' hg' hlong'
  · rintro ⟨hrevealed, hlost⟩
    constructor
    · rintro ⟨g, hg, hlong⟩
      by_contra hnone
      push Not at hnone
      exact hrevealed ⟨⟨g, hg, hlong, hnone g hg⟩, hnone⟩
    · rintro ⟨g, hg, hlong⟩
      by_contra hnone
      push Not at hnone
      exact hlost ⟨⟨g, hg, hlong, hnone g hg⟩, hnone⟩

/-- Ten high windows are enough wherever they begin. -/
theorem verdictFloat_prepend_silence_ten :
    (sixteenKilohertz half).verdictFloat ([0.1] ++ List.replicate 10 0.9) (5120 + 1 * 512) =
      (sixteenKilohertz half).verdictFloat (List.replicate 10 0.9) 5120 :=
  (verdictFloat_prepend_silence_iff 5120 (by decide +kernel) (by decide +kernel)).mpr
    (by decide +kernel)

/-- Eight high windows and five low ones, in a capture of 13 windows, are no
speech; behind one low window they are. -/
theorem verdictFloat_prepend_silence_eight :
    (0.1 : ℚ) < (sixteenKilohertz half).lowThreshold ∧
    (sixteenKilohertz half).verdictFloat (List.replicate 8 0.9 ++ List.replicate 5 0.1) 6656 =
      .ok false ∧
    (sixteenKilohertz half).verdictFloat
        ([0.1] ++ (List.replicate 8 0.9 ++ List.replicate 5 0.1)) (6656 + 1 * 512) =
      .ok true := by
  decide +kernel

/-! Up to `2 ^ 24` samples the end is exact. -/

theorem unpaddedEnd_eq {total : ℤ} (h : 0 ≤ total) (hle : total ≤ 2 ^ 24) :
    unpaddedEnd total = (total - 480 : ℤ) := by
  have hround := toFloat_eq (n := total - 480) (by rw [abs_le]; omega)
  rw [unpaddedEnd, toFloat_eq (by rw [abs_le]; omega), ← hround, toFloat]
  push_cast
  rfl

theorem not_lost_of_le {a : ℕ} {total : ℤ} (h : 0 ≤ total) (hle : total + a * 512 ≤ 2 ^ 24)
    (g : Segment) : ¬ Lost a total g := by
  obtain ⟨first, quiet⟩ := g
  cases quiet with
  | some j => exact id
  | none =>
      simp only [Lost]
      rw [unpaddedEnd_eq h (by omega), unpaddedEnd_eq (by omega) hle,
        ← Int.cast_natCast (R := ℚ), Int.cast_le, ← Int.cast_natCast (R := ℚ), Int.cast_lt]
      omega

/-- What silence in front can reveal in a capture of 17 minutes. -/
theorem revealed_iff_of_le {a : ℕ} {total : ℤ} (h : 0 ≤ total) (hle : total + a * 512 ≤ 2 ^ 24)
    (g : Segment) :
    Revealed a total g ↔
      g.first = 0 ∧
        match g.quiet with
        | some j => j = 8
        | none => 4480 ≤ total ∧ total < 4960 := by
  obtain ⟨first, quiet⟩ := g
  cases quiet with
  | some j => exact Iff.rfl
  | none =>
      simp only [Revealed, missingPad]
      rw [unpaddedEnd_eq h (by omega), unpaddedEnd_eq (by omega) hle,
        ← Int.cast_natCast (R := ℚ), Int.cast_lt, ← Int.cast_natCast (R := ℚ), Int.cast_le]
      split <;> omega

/-! In longer captures the roundings alone can reveal a segment and lose one. -/

example : Revealed 1 16777087 ⟨32759, none⟩ := by decide +kernel

example : Lost (2 ^ 20) 4992 ⟨1, none⟩ := by decide +kernel

/-! ### Silence at the end of the capture -/

/-- The appended silence closes the segment at its window `q`, too early for
the length filter, which it passed while the capture ended it. -/
def Retracted (n b i q : ℕ) : Prop :=
  q + 5 ≤ n + b ∧ i + 9 + missingPad i ≤ n ∧ q < i + 8 + missingPad i

/-- The appended silence lengthens the segment enough for the filter: by the
padding of its end if it closes it, by its own length if it does not. -/
def Created (n b i q : ℕ) : Prop :=
  (q + 5 ≤ n + b ∧ q = n ∧ n = i + 8 + missingPad i) ∨
    (n + b < q + 5 ∧ n < i + 9 + missingPad i ∧ i + 9 + missingPad i ≤ n + b)

theorem closes_iff {n b q : ℕ} :
    (sixteenKilohertz t).closes (n + b - 1 - q) = true ↔ q + 5 ≤ n + b := by
  rw [closes, decide_eq_true_eq]
  simp only [toParams_sixteenKilohertz]
  omega

/-- The open segment, before and after the silence is appended. -/
theorem longEnoughFloat_appended_iff {n b i q : ℕ} (hi : i < n) (hq : q ≤ n)
    (hcount : ((n + b : ℕ) : ℤ) * 512 < 2 ^ 31) :
    ((sixteenKilohertz t).LongEnoughFloat ((n + b : ℕ) * 512)
        ⟨i, if (sixteenKilohertz t).closes (n + b - 1 - q) then some q else none⟩ ↔
      i + 9 + missingPad i ≤ n) ↔
    ¬ Retracted n b i q ∧ ¬ Created n b i q := by
  unfold Retracted Created
  by_cases hc : q + 5 ≤ n + b
  · rw [if_pos (closes_iff.mpr hc), longEnoughFloat_closed_iff (by omega) (by omega)]
    omega
  · rw [if_neg (closes_iff.not.mpr hc), longEnoughFloat_open_windows_iff (by omega) hcount]
    omega

theorem exists_longEnoughFloat_closed_iff {done : List Segment} {n : ℕ}
    (hn : (n : ℤ) * 512 < 2 ^ 31) (hdone : ∀ g ∈ done, g.quiet.isSome)
    (hbounds : ∀ g ∈ done, g.first < n ∧ ∀ j ∈ g.quiet, j < n) (total : ℤ) :
    (∃ g ∈ done, (sixteenKilohertz t).LongEnoughFloat total g) ↔
      ∃ g ∈ done, ∃ j ∈ g.quiet, g.first + 8 + missingPad g.first ≤ j := by
  have hclosed : ∀ {first j : ℕ}, ⟨first, some j⟩ ∈ done →
      ((sixteenKilohertz t).LongEnoughFloat total ⟨first, some j⟩ ↔
        first + 8 + missingPad first ≤ j) := by
    intro first j hg
    obtain ⟨hfirst, hquiet⟩ := hbounds _ hg
    have hj : j < n := hquiet j rfl
    have hfirst' : first < n := hfirst
    exact longEnoughFloat_closed_iff (by omega) (by omega)
  constructor
  · rintro ⟨⟨first, quiet⟩, hg, hlong⟩
    obtain ⟨j, rfl⟩ := Option.isSome_iff_exists.mp (hdone _ hg)
    exact ⟨_, hg, j, rfl, (hclosed hg).mp hlong⟩
  · rintro ⟨⟨first, quiet⟩, hg, j, hj, hlong⟩
    obtain rfl : quiet = some j := hj
    exact ⟨_, hg, (hclosed hg).mpr hlong⟩

/-- Silence appended to a capture whose windows an `int` can count leaves the
verdict alone, unless it retracts or creates the detection of the segment that
was open, and no other segment is long enough. -/
theorem verdictFloat_append_silence_iff {p lows : List ℚ}
    (hlows : ∀ x ∈ lows, x < (sixteenKilohertz t).lowThreshold)
    (hcount : ((p.length + lows.length : ℕ) : ℤ) * 512 < 2 ^ 31) :
    (sixteenKilohertz t).verdictFloat (p ++ lows) ((p.length + lows.length : ℕ) * 512) =
        (sixteenKilohertz t).verdictFloat p (p.length * 512) ↔
      lows = [] ∨
      (∃ g ∈ (sixteenKilohertz t).speechSegmentsFloat p,
        ∃ j ∈ g.quiet, g.first + 8 + missingPad g.first ≤ j) ∨
      ∀ i q, openSegment (sixteenKilohertz t).closes (p.map (sixteenKilohertz t).levelFloat) =
          some (i, q) →
        ¬ Retracted p.length lows.length i q ∧ ¬ Created p.length lows.length i q := by
  obtain ⟨done, hdone, hopen⟩ := segments_append_low (closes_mono windowSizeSamples_pos)
    (p.map (sixteenKilohertz t).levelFloat)
  have hbounds := fun g (hg : g ∈ (sixteenKilohertz t).speechSegmentsFloat p) =>
    bounds_of_mem_speechSegmentsFloat hg
  have hcount' : (p.length : ℤ) * 512 < 2 ^ 31 := by omega
  rw [speechSegmentsFloat_eq windowSizeSamples_pos] at hbounds
  rw [verdictFloat_eq windowSizeSamples_pos, verdictFloat_eq windowSizeSamples_pos,
    speechSegmentsFloat_eq windowSizeSamples_pos, speechSegmentsFloat_eq windowSizeSamples_pos,
    Except.ok.injEq, decide_eq_decide, List.map_append, map_levelFloat_low hlows]
  cases hcase : openSegment (sixteenKilohertz t).closes
      (p.map (sixteenKilohertz t).levelFloat) with
  | none =>
      rw [hcase] at hopen
      have hseg : segments (sixteenKilohertz t).closes
          (p.map (sixteenKilohertz t).levelFloat) = done := by
        simpa using hopen 0
      rw [hseg] at hbounds ⊢
      rw [hopen lows.length]
      simp [exists_longEnoughFloat_closed_iff hcount' hdone hbounds]
  | some iq =>
      obtain ⟨i, q⟩ := iq
      rw [hcase] at hopen
      obtain ⟨hq, hseg, happend⟩ := hopen
      rw [List.length_map] at hq happend
      rw [hseg] at hbounds ⊢
      have hi : i < p.length := (hbounds ⟨i, none⟩ (by simp)).1
      have hold := exists_longEnoughFloat_closed_iff (t := t) hcount' hdone
        fun g hg => hbounds g (List.mem_append_left _ hg)
      have hnew := longEnoughFloat_open_windows_iff (t := t) (i := i) (by omega) hcount'
      by_cases hnil : lows = []
      · subst hnil
        simp [hseg]
      · have hlen : lows.length ≠ 0 := fun h => hnil (List.eq_nil_of_length_eq_zero h)
        rw [happend _ hlen]
        simp only [List.mem_append, List.mem_singleton, or_and_right, exists_or, exists_eq_left,
          hold, hnew, hnil, false_or, Option.some.injEq, Prod.mk.injEq, and_imp]
        by_cases hlong : ∃ g ∈ done, ∃ j ∈ g.quiet, g.first + 8 + missingPad g.first ≤ j
        · simp only [hlong, true_or]
        · -- Only the open segment is left to decide.
          simp only [hlong, false_or, forall_eq', forall_apply_eq_imp_iff, Option.not_mem_none,
            false_and, exists_false]
          exact longEnoughFloat_appended_iff hi hq hcount

/-- Ten high windows that a silence has closed stay detected. -/
theorem verdictFloat_append_silence_ten :
    (sixteenKilohertz half).verdictFloat
        ((List.replicate 10 0.9 ++ List.replicate 5 0.1) ++ [0.1]) ((15 + 1 : ℕ) * 512) =
      (sixteenKilohertz half).verdictFloat (List.replicate 10 0.9 ++ List.replicate 5 0.1)
        ((15 : ℕ) * 512) :=
  (verdictFloat_append_silence_iff (by decide +kernel) (by decide +kernel)).mpr
    (Or.inr (Or.inl (by decide +kernel)))

/-- Silence both retracts a detection, of seven high windows and the four low
ones after them, and creates one, of eight high windows behind a low one. -/
theorem verdictFloat_append_silence_seven_eight :
    (0.1 : ℚ) < (sixteenKilohertz half).lowThreshold ∧
    (sixteenKilohertz half).verdictFloat (List.replicate 7 0.9 ++ List.replicate 4 0.1)
      ((11 : ℕ) * 512) = .ok true ∧
    (sixteenKilohertz half).verdictFloat ((List.replicate 7 0.9 ++ List.replicate 4 0.1) ++ [0.1])
      ((11 + 1 : ℕ) * 512) = .ok false ∧
    (sixteenKilohertz half).verdictFloat ([0.1] ++ List.replicate 8 0.9) ((9 : ℕ) * 512) =
      .ok false ∧
    (sixteenKilohertz half).verdictFloat (([0.1] ++ List.replicate 8 0.9) ++ List.replicate 5 0.1)
      ((9 + 5 : ℕ) * 512) = .ok true := by
  decide +kernel

end SixteenKilohertz

end RadioChatter.Vad
