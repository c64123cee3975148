import RadioChatter.Lib.Segmenter
import Mathlib.Data.List.Forall2
import Mathlib.Data.Nat.Basic

/-!
Raising the level of some windows only widens segments.

Two segmenters read inputs of which the second is nowhere below the first.
Every segment of the first run then lies within one of the second: it starts
no later and, if it was closed, was closed no later. While the windows are
being read, the segment it lies within may still be open, which is why the
relation kept by one step speaks of both.
-/

namespace Hysteresis

/-- `g` lies within `g'`. -/
def Segment.Within (g g' : Segment) : Prop :=
  g'.first ≤ g.first ∧ ∀ low' ∈ g'.quiet, ∃ low ∈ g.quiet, low ≤ low'

/-- The second phase has an open segment at least as wide as that of the first. -/
inductive Phase.Below : Phase → Phase → Prop
  | idle (p : Phase) : Below .idle p
  | active {first first' : ℕ} (h : first' ≤ first) : Below (.active first) (.active first')
  | lapsed {first low first' : ℕ} (h : first' ≤ first) :
      Below (.pending first low) (.active first')
  | pending {first low first' low' : ℕ} (h : first' ≤ first) (hlow : low ≤ low') :
      Below (.pending first low) (.pending first' low')

theorem Phase.Below.exists_open {p p' : Phase} (h : p.Below p') {first : ℕ} (hp : p.Open first) :
    ∃ first', first' ≤ first ∧ p'.Open first' := by
  cases h with
  | idle => exact hp.elim
  | @active _ first' hf => exact ⟨first', le_of_le_of_eq hf (Eq.symm hp), rfl⟩
  | @lapsed _ _ first' hf => exact ⟨first', le_of_le_of_eq hf (Eq.symm hp), rfl⟩
  | @pending _ _ first' _ hf => exact ⟨first', le_of_le_of_eq hf (Eq.symm hp), rfl⟩

/-- Segment `⟨first, low⟩` lies within a segment of `s` that is done or open. -/
def State.Holds (s : State) (first low : ℕ) : Prop :=
  (∃ g ∈ s.done, Segment.Within ⟨first, some low⟩ g) ∨ (Phase.pending first low).Below s.phase

variable {closes : ℕ → Bool}

/-- A segment that is held stays held, whatever is read. -/
theorem State.Holds.step {s : State} {first low n : ℕ} (h : s.Holds first low) (hlow : low ≤ n)
    (x : Level) : (step closes n s x).Holds first low := by
  rcases h with ⟨g, hg, hin⟩ | hopen
  · exact Or.inl ⟨g, subset_step n s x hg, hin⟩
  · rcases s with ⟨phase, done⟩
    cases x with
    | middle => exact Or.inr hopen
    | high =>
        cases hopen with
        | lapsed hf => exact Or.inr (.lapsed hf)
        | pending hf hl => exact Or.inr (.lapsed hf)
    | low =>
        cases hopen with
        | @lapsed _ _ first' hf =>
            simp only [Hysteresis.step, State.settle]
            split
            · exact Or.inl ⟨⟨first', some n⟩, by simp, hf, by simpa using hlow⟩
            · exact Or.inr (.pending hf hlow)
        | @pending _ _ first' low' hf hl =>
            simp only [Hysteresis.step, State.settle]
            split
            · exact Or.inl ⟨⟨first', some low'⟩, by simp, hf, by simpa using hl⟩
            · exact Or.inr (.pending hf hl)

/-- What the run on the raised input keeps about the run on the original one. -/
structure State.Dominated (closes : ℕ → Bool) (n : ℕ) (s s' : State) : Prop where
  sound : s.Sound closes n
  sound' : s'.Sound closes n
  phase : s.phase.Below s'.phase
  done : ∀ g ∈ s.done, ∃ low ∈ g.quiet, low < n ∧ s'.Holds g.first low

/-- A window that is not low in either run. -/
theorem State.Dominated.below_middle {n : ℕ} {s s' : State} (h : s.Dominated closes n s')
    {x' : Level} (hx : .middle ≤ x') : s.phase.Below (Hysteresis.step closes n s' x').phase := by
  have hbelow := h.phase
  cases x' with
  | low => exact absurd hx (by decide)
  | middle => exact hbelow
  | high =>
      rcases s with ⟨phase, done⟩
      rcases s' with ⟨phase', done'⟩
      cases hbelow with
      | idle p => exact .idle _
      | active hf => exact .active hf
      | lapsed hf => exact .lapsed hf
      | pending hf hl => exact .lapsed hf

/-- A window that is high in both runs. -/
theorem State.Dominated.below_high {n : ℕ} {s s' : State} (h : s.Dominated closes n s') :
    (Hysteresis.step closes n s .high).phase.Below (Hysteresis.step closes n s' .high).phase := by
  have hbelow := h.phase
  have hbefore := h.sound'.phase
  rcases s with ⟨phase, done⟩
  rcases s' with ⟨phase', done'⟩
  cases hbelow with
  | idle =>
      cases phase' with
      | idle => exact .active le_rfl
      | active first' => exact .active (Nat.le_of_lt hbefore)
      | pending first' low' => exact .active (Nat.le_of_lt (lt_trans hbefore.1 hbefore.2))
  | active hf => exact .active hf
  | lapsed hf => exact .active hf
  | pending hf hl => exact .active hf

section Monotone

variable (mono : ∀ d e, d ≤ e → closes d = true → closes e = true)
include mono

/-- The low window `n` of the first run, when its silence began at `low`. -/
theorem settle_dominated {n first low : ℕ} {done : List Segment} {s' : State} {x' : Level}
    (hlow : low ≤ n) (hbelow : (Phase.pending first low).Below s'.phase)
    (hdone : ∀ g ∈ done, ∃ low ∈ g.quiet, low < n + 1 ∧ (step closes n s' x').Holds g.first low) :
    (State.settle closes first low n done).phase.Below (step closes n s' x').phase ∧
      ∀ g ∈ (State.settle closes first low n done).done,
        ∃ low ∈ g.quiet, low < n + 1 ∧ (step closes n s' x').Holds g.first low := by
  have hheld : (step closes n s' x').Holds first low :=
    State.Holds.step (Or.inr hbelow) hlow x'
  unfold State.settle
  by_cases hc : closes (n - low) = true
  · rw [if_pos hc]
    refine ⟨.idle _, fun g hg => ?_⟩
    rcases List.mem_append.mp hg with hg | hg
    · exact hdone g hg
    · obtain rfl := List.mem_singleton.mp hg
      exact ⟨low, rfl, by omega, hheld⟩
  · rw [if_neg hc]
    refine ⟨?_, hdone⟩
    -- A silence that began later cannot be the longer one, so neither run closes.
    cases x' with
    | middle => exact hbelow
    | high =>
        rcases s' with ⟨phase', done'⟩
        cases hbelow with
        | lapsed hf => exact .lapsed hf
        | pending hf hl => exact .lapsed hf
    | low =>
        rcases s' with ⟨phase', done'⟩
        cases hbelow with
        | lapsed hf =>
            have hc' : ¬ closes (n - n) = true := fun h => hc (mono _ _ (by omega) h)
            simp only [step, State.settle, if_neg hc']
            exact .pending hf hlow
        | @pending _ _ _ low' hf hl =>
            have hc' : ¬ closes (n - low') = true := fun h => hc (mono _ _ (by omega) h)
            simp only [step, State.settle, if_neg hc']
            exact .pending hf hl

theorem State.Dominated.step {n : ℕ} {s s' : State} (h : s.Dominated closes n s') {x x' : Level}
    (hx : x ≤ x') :
    (step closes n s x).Dominated closes (n + 1) (step closes n s' x') := by
  have hdone : ∀ g ∈ s.done,
      ∃ low ∈ g.quiet, low < n + 1 ∧ (Hysteresis.step closes n s' x').Holds g.first low := by
    intro g hg
    obtain ⟨low, hq, hlow, hheld⟩ := h.done g hg
    exact ⟨low, hq, by omega, hheld.step (by omega) x'⟩
  suffices hmain : (Hysteresis.step closes n s x).phase.Below
        (Hysteresis.step closes n s' x').phase ∧
      ∀ g ∈ (Hysteresis.step closes n s x).done,
        ∃ low ∈ g.quiet, low < n + 1 ∧ (Hysteresis.step closes n s' x').Holds g.first low from
    ⟨h.sound.step x, h.sound'.step x', hmain.1, hmain.2⟩
  cases x with
  | low =>
      rcases s with ⟨phase, done⟩
      have hbelow := h.phase
      cases phase with
      | idle => exact ⟨.idle _, hdone⟩
      | active first =>
          -- The other segment cannot be in a silence yet: `Below` excludes it.
          cases hp : s'.phase with
          | active first' =>
              rw [hp] at hbelow
              cases hbelow with
              | active hf => exact settle_dominated mono le_rfl (by rw [hp]; exact .lapsed hf) hdone
          | idle => rw [hp] at hbelow; cases hbelow
          | pending first' low' => rw [hp] at hbelow; cases hbelow
      | pending first low =>
          have hbefore := h.sound.phase
          exact settle_dominated mono (Nat.le_of_lt hbefore.2) hbelow hdone
  | middle => exact ⟨h.below_middle hx, hdone⟩
  | high =>
      obtain rfl := high_le_iff.mp hx
      have hsame : (Hysteresis.step closes n s .high).done = s.done := by
        rcases s with ⟨phase, done⟩
        cases phase <;> rfl
      exact ⟨h.below_high, by rwa [hsame]⟩

theorem State.Dominated.runFrom {n : ℕ} {s s' : State} (h : s.Dominated closes n s')
    {w w' : List Level} (hw : List.Forall₂ (· ≤ ·) w w') :
    (runFrom closes n s w).Dominated closes (n + w.length) (runFrom closes n s' w') := by
  induction hw generalizing n s s' with
  | nil => exact h
  | @cons x x' w w' hx _ ih =>
      rw [runFrom_cons, runFrom_cons, List.length_cons,
        show n + (w.length + 1) = n + 1 + w.length by omega]
      exact ih (h.step mono hx)

/-- **Widening.** Every segment of an input lies within a segment of any
input that is nowhere below it. -/
theorem segments_within {w w' : List Level} (hw : List.Forall₂ (· ≤ ·) w w') :
    ∀ g ∈ segments closes w, ∃ g' ∈ segments closes w', g.Within g' := by
  have hinit : State.init.Dominated closes 0 State.init :=
    ⟨State.sound_init, State.sound_init, .idle _, by simp [State.init]⟩
  have hdom := hinit.runFrom mono hw
  have hopen : ∀ {first : ℕ} {quiet : Option ℕ} {p : Phase},
      p.Below (runFrom closes 0 .init w').phase → p.Open first →
        ∃ g' ∈ segments closes w', Segment.Within ⟨first, quiet⟩ g' := by
    intro first quiet p hbelow hp
    obtain ⟨first', hle, hp'⟩ := hbelow.exists_open hp
    exact ⟨⟨first', none⟩, State.mem_flush_iff.mpr (Or.inr ⟨first', rfl, hp'⟩), hle, by simp⟩
  intro g hg
  obtain hdone | ⟨first, rfl, hp⟩ := State.mem_flush_iff.mp hg
  · obtain ⟨low, hq, -, hheld⟩ := hdom.done g hdone
    obtain ⟨first, quiet⟩ := g
    obtain rfl : quiet = some low := hq
    obtain ⟨g', hg', hin⟩ | hbelow := hheld
    · exact ⟨g', State.mem_flush_iff.mpr (Or.inl hg'), hin⟩
    · exact hopen hbelow rfl
  · exact hopen hdom.phase hp

end Monotone

end Hysteresis
