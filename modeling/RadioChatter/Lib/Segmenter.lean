import Mathlib.Data.List.Basic
import Mathlib.Tactic.Common

/-!
Cutting a stream of levels into segments with hysteresis.

A segment opens at a high window and stays open over middle windows. A low
window starts a silence; a high window forgets it, and a silence that has
lasted long enough closes the segment. How long is left to `closes`, which is
asked about the distance from the first low window of the silence to the
present one. The segmenter reads each window once; its phase is all it
remembers besides the segments that are done.
-/

namespace Hysteresis

/-- The three things a window can be. -/
inductive Level
  | low
  | middle
  | high
  deriving DecidableEq, Repr

def Level.rank : Level → ℕ
  | .low => 0
  | .middle => 1
  | .high => 2

instance : LE Level := ⟨fun x y => x.rank ≤ y.rank⟩

instance (x y : Level) : Decidable (x ≤ y) := inferInstanceAs (Decidable (x.rank ≤ y.rank))

@[simp] theorem high_le_iff {x : Level} : .high ≤ x ↔ x = .high := by
  cases x <;> decide

/-- A segment: its first window, and the first window of the silence that
closed it, if one did. -/
structure Segment where
  first : ℕ
  quiet : Option ℕ
  deriving DecidableEq, Repr

inductive Phase
  | idle
  | active (first : ℕ)
  | pending (first low : ℕ)
  deriving DecidableEq, Repr

structure State where
  phase : Phase
  done : List Segment
  deriving DecidableEq, Repr

def State.init : State := ⟨.idle, []⟩

/-- Window `n` is low and the silence began at window `low`. -/
def State.settle (closes : ℕ → Bool) (first low n : ℕ) (done : List Segment) : State :=
  if closes (n - low) then ⟨.idle, done ++ [⟨first, some low⟩]⟩
  else ⟨.pending first low, done⟩

/-- Read window `n`. -/
def step (closes : ℕ → Bool) (n : ℕ) (s : State) : Level → State
  | .high =>
      match s.phase with
      | .idle => ⟨.active n, s.done⟩
      | .active first => ⟨.active first, s.done⟩
      | .pending first _ => ⟨.active first, s.done⟩
  | .middle => s
  | .low =>
      match s.phase with
      | .idle => s
      | .active first => .settle closes first n n s.done
      | .pending first low => .settle closes first low n s.done

/-- Read all windows of `w`, the first of which is window `n`. -/
def runFrom (closes : ℕ → Bool) : ℕ → State → List Level → State
  | _, s, [] => s
  | n, s, x :: w => runFrom closes (n + 1) (step closes n s x) w

/-- The segments when the input ends: one that is still open is kept. -/
def State.flush (s : State) : List Segment :=
  match s.phase with
  | .idle => s.done
  | .active first => s.done ++ [⟨first, none⟩]
  | .pending first _ => s.done ++ [⟨first, none⟩]

def segments (closes : ℕ → Bool) (w : List Level) : List Segment :=
  (runFrom closes 0 .init w).flush

/-- A segment with this first window is open. -/
def Phase.Open (first : ℕ) : Phase → Prop
  | .idle => False
  | .active i => first = i
  | .pending i _ => first = i

theorem State.mem_flush_iff {s : State} {g : Segment} :
    g ∈ s.flush ↔ g ∈ s.done ∨ ∃ first, g = ⟨first, none⟩ ∧ s.phase.Open first := by
  obtain ⟨phase, done⟩ := s
  cases phase <;> simp [State.flush, Phase.Open]

variable {closes : ℕ → Bool}

@[simp] theorem runFrom_nil (n : ℕ) (s : State) : runFrom closes n s [] = s := rfl

@[simp] theorem runFrom_cons (n : ℕ) (s : State) (x : Level) (w : List Level) :
    runFrom closes n s (x :: w) = runFrom closes (n + 1) (step closes n s x) w := rfl

@[simp] theorem runFrom_append (n : ℕ) (s : State) (u v : List Level) :
    runFrom closes n s (u ++ v) = runFrom closes (n + u.length) (runFrom closes n s u) v := by
  induction u generalizing n s with
  | nil => rfl
  | cons x u ih =>
      rw [List.cons_append, runFrom_cons, ih, List.length_cons, runFrom_cons]
      congr 1
      omega

theorem runFrom_snoc (w : List Level) (s : State) (x : Level) :
    runFrom closes 0 s (w ++ [x]) = step closes w.length (runFrom closes 0 s w) x := by
  rw [runFrom_append, Nat.zero_add, runFrom_cons, runFrom_nil]

/-- The second part of the input is read from where the first one ended. -/
theorem segments_append (u v : List Level) :
    segments closes (u ++ v) =
      (runFrom closes u.length (runFrom closes 0 .init u) v).flush := by
  rw [segments, runFrom_append, Nat.zero_add]

/-- Segments are only ever added. -/
theorem subset_step (n : ℕ) (s : State) (x : Level) :
    s.done ⊆ (step closes n s x).done := by
  rcases s with ⟨phase, done⟩
  cases x <;> cases phase <;> simp [step, State.settle] <;> split <;> simp

/-! ### What the windows seen so far guarantee -/

/-- A phase before window `n` names windows already seen. -/
def Phase.Before (n : ℕ) : Phase → Prop
  | .idle => True
  | .active first => first < n
  | .pending first low => first < low ∧ low < n

/-- A done segment ends with a silence that was seen to last long enough. -/
def Segment.Closed (closes : ℕ → Bool) (n : ℕ) (g : Segment) : Prop :=
  ∃ low k, g.quiet = some low ∧ g.first < low ∧ low ≤ k ∧ k < n ∧ closes (k - low)

theorem Segment.Closed.mono {n m : ℕ} {g : Segment} (h : g.Closed closes n) (hnm : n ≤ m) :
    g.Closed closes m := by
  obtain ⟨low, k, hq, hfirst, hle, hk, hc⟩ := h
  exact ⟨low, k, hq, hfirst, hle, by omega, hc⟩

structure State.Sound (closes : ℕ → Bool) (n : ℕ) (s : State) : Prop where
  phase : s.phase.Before n
  done : ∀ g ∈ s.done, g.Closed closes n

theorem State.sound_init : State.init.Sound closes 0 where
  phase := trivial
  done := by simp [State.init]

theorem State.Sound.settle {first low n : ℕ} {done : List Segment}
    (hfirst : first < low) (hlow : low ≤ n) (hdone : ∀ g ∈ done, g.Closed closes n) :
    (State.settle closes first low n done).Sound closes (n + 1) := by
  have hdone' : ∀ g ∈ done, g.Closed closes (n + 1) :=
    fun g hg => (hdone g hg).mono (by omega)
  unfold State.settle
  split
  next hc =>
    refine ⟨trivial, ?_⟩
    intro g hg
    rcases List.mem_append.mp hg with hg | hg
    · exact hdone' g hg
    · obtain rfl := List.mem_singleton.mp hg
      exact ⟨low, n, rfl, hfirst, hlow, by omega, hc⟩
  next => exact ⟨⟨hfirst, by omega⟩, hdone'⟩

theorem State.Sound.step {n : ℕ} {s : State} (h : s.Sound closes n) (x : Level) :
    (step closes n s x).Sound closes (n + 1) := by
  rcases s with ⟨phase, done⟩
  obtain ⟨hphase, hdone⟩ := h
  have hdone' : ∀ g ∈ done, g.Closed closes (n + 1) :=
    fun g hg => (hdone g hg).mono (by omega)
  cases x with
  | low =>
      cases phase with
      | idle => exact ⟨trivial, hdone'⟩
      | active first => exact .settle hphase (Nat.le_refl n) hdone
      | pending first low => exact .settle hphase.1 (Nat.le_of_lt hphase.2) hdone
  | middle =>
      refine ⟨?_, hdone'⟩
      cases phase with
      | idle => trivial
      | active first => exact Nat.lt_succ_of_lt hphase
      | pending first low => exact ⟨hphase.1, Nat.lt_succ_of_lt hphase.2⟩
  | high =>
      cases phase with
      | idle => exact ⟨Nat.lt_succ_self n, hdone'⟩
      | active first => exact ⟨Nat.lt_succ_of_lt hphase, hdone'⟩
      | pending first low => exact ⟨Nat.lt_succ_of_lt (Nat.lt_trans hphase.1 hphase.2), hdone'⟩

theorem State.Sound.runFrom {n : ℕ} {s : State} (h : s.Sound closes n) (w : List Level) :
    (runFrom closes n s w).Sound closes (n + w.length) := by
  induction w generalizing n s with
  | nil => exact h
  | cons x w ih =>
      rw [runFrom_cons, List.length_cons, show n + (w.length + 1) = n + 1 + w.length by omega]
      exact ih (h.step x)

theorem sound_run (closes : ℕ → Bool) (w : List Level) :
    (runFrom closes 0 .init w).Sound closes w.length := by
  simpa using State.sound_init.runFrom w

theorem State.Sound.quiet_isSome {n : ℕ} {s : State} (h : s.Sound closes n) :
    ∀ g ∈ s.done, g.quiet.isSome := by
  intro g hg
  obtain ⟨low, -, hquiet, -⟩ := h.done g hg
  rw [hquiet, Option.isSome_some]

/-- A segment that is not open at the end of the input was closed by a
silence inside it. -/
theorem closed_of_mem_segments {w : List Level} {g : Segment} (hg : g ∈ segments closes w)
    (hquiet : g.quiet.isSome) : g.Closed closes w.length := by
  obtain hdone | ⟨first, rfl, -⟩ := State.mem_flush_iff.mp hg
  · exact (sound_run closes w).done g hdone
  · cases hquiet

theorem first_lt_of_mem_segments {w : List Level} {g : Segment} (hg : g ∈ segments closes w) :
    g.first < w.length := by
  have hsound := sound_run closes w
  obtain hdone | ⟨first, rfl, hopen⟩ := State.mem_flush_iff.mp hg
  · obtain ⟨low, k, -, hfirst, hle, hk, -⟩ := hsound.done g hdone
    omega
  · have hphase := hsound.phase
    cases hp : (runFrom closes 0 .init w).phase with
    | idle =>
        rw [hp] at hopen
        exact hopen.elim
    | active i =>
        rw [hp] at hopen hphase
        obtain rfl : first = i := hopen
        exact hphase
    | pending i low =>
        rw [hp] at hopen hphase
        obtain rfl : first = i := hopen
        exact Nat.lt_trans hphase.1 hphase.2

theorem quiet_lt_of_mem_segments {w : List Level} {g : Segment} (hg : g ∈ segments closes w) :
    ∀ j ∈ g.quiet, j < w.length := by
  intro j hj
  obtain ⟨low, k, hlow, -, hle, hk, -⟩ := closed_of_mem_segments hg (Option.isSome_of_mem hj)
  obtain rfl : low = j := by simpa [hlow] using hj
  omega

/-! ### Segments follow each other -/

/-- The silence after `g` is over before `g'` begins. -/
def Segment.Precedes (closes : ℕ → Bool) (g g' : Segment) : Prop :=
  ∃ low k, g.quiet = some low ∧ low ≤ k ∧ closes (k - low) ∧ k < g'.first

theorem Segment.Closed.precedes {n : ℕ} {g g' : Segment} (h : g.Closed closes n)
    (hn : n ≤ g'.first) : g.Precedes closes g' := by
  obtain ⟨low, k, hq, -, hle, hk, hc⟩ := h
  exact ⟨low, k, hq, hle, hc, by omega⟩

/-- What precedes the last segment does not depend on how that one ends. -/
theorem pairwise_precedes_snoc {done : List Segment} {first : ℕ} {quiet : Option ℕ}
    (h : List.Pairwise (Segment.Precedes closes) (done ++ [⟨first, none⟩])) :
    List.Pairwise (Segment.Precedes closes) (done ++ [⟨first, quiet⟩]) := by
  rw [List.pairwise_append] at h ⊢
  obtain ⟨hdone, -, hlast⟩ := h
  refine ⟨hdone, List.pairwise_singleton _ _, ?_⟩
  intro g hg g' hg'
  obtain rfl := List.mem_singleton.mp hg'
  exact hlast g hg ⟨first, none⟩ (List.mem_singleton_self _)

theorem pairwise_flush_settle {first low n : ℕ} {done : List Segment}
    (h : List.Pairwise (Segment.Precedes closes) (done ++ [⟨first, none⟩])) :
    (State.settle closes first low n done).flush.Pairwise (Segment.Precedes closes) := by
  unfold State.settle
  split
  · exact pairwise_precedes_snoc h
  · exact h

theorem State.Sound.pairwise_flush_step {n : ℕ} {s : State} (hs : s.Sound closes n)
    (h : s.flush.Pairwise (Segment.Precedes closes)) (x : Level) :
    (Hysteresis.step closes n s x).flush.Pairwise (Segment.Precedes closes) := by
  obtain ⟨phase, done⟩ := s
  cases x with
  | middle => exact h
  | high =>
      cases phase with
      | idle =>
          -- A new segment begins at `n`, where all silences so far are over.
          apply List.pairwise_append.mpr
          refine ⟨h, List.pairwise_singleton _ _, ?_⟩
          intro g hg g' hg'
          obtain rfl := List.mem_singleton.mp hg'
          exact (hs.done g hg).precedes (Nat.le_refl n)
      | active first => exact h
      | pending first low => exact h
  | low =>
      cases phase with
      | idle => exact h
      | active first => exact pairwise_flush_settle h
      | pending first low => exact pairwise_flush_settle h

theorem State.Sound.pairwise_flush_runFrom {n : ℕ} {s : State} (hs : s.Sound closes n)
    (h : s.flush.Pairwise (Segment.Precedes closes)) (w : List Level) :
    (Hysteresis.runFrom closes n s w).flush.Pairwise (Segment.Precedes closes) := by
  induction w generalizing n s with
  | nil => exact h
  | cons x w ih =>
      rw [runFrom_cons]
      exact ih (hs.step x) (hs.pairwise_flush_step h x)

/-- **Order.** Every segment is over, with its silence, before a later one
begins. -/
theorem pairwise_segments (closes : ℕ → Bool) (w : List Level) :
    (segments closes w).Pairwise (Segment.Precedes closes) :=
  State.sound_init.pairwise_flush_runFrom List.Pairwise.nil w

/-! ### Silence in front

Low windows leave an idle segmenter idle, and every position it names
afterwards is moved by their number. -/

def Segment.shift (a : ℕ) (g : Segment) : Segment := ⟨a + g.first, g.quiet.map (a + ·)⟩

def Phase.shift (a : ℕ) : Phase → Phase
  | .idle => .idle
  | .active first => .active (a + first)
  | .pending first low => .pending (a + first) (a + low)

def State.shift (a : ℕ) (s : State) : State := ⟨s.phase.shift a, s.done.map (Segment.shift a)⟩

@[simp] theorem State.settle_shift (a first low n : ℕ) (done : List Segment) :
    State.settle closes (a + first) (a + low) (a + n) (done.map (Segment.shift a)) =
      (State.settle closes first low n done).shift a := by
  unfold State.settle
  rw [Nat.add_sub_add_left]
  split
  · simp [State.shift, Phase.shift, Segment.shift]
  · rfl

@[simp] theorem step_shift (a n : ℕ) (s : State) (x : Level) :
    step closes (a + n) (s.shift a) x = (step closes n s x).shift a := by
  rcases s with ⟨phase, done⟩
  cases x with
  | low =>
      cases phase with
      | idle => rfl
      | active first => exact State.settle_shift a first n n done
      | pending first low => exact State.settle_shift a first low n done
  | middle => rfl
  | high => cases phase <;> rfl

@[simp] theorem runFrom_shift (a n : ℕ) (s : State) (w : List Level) :
    runFrom closes (a + n) (s.shift a) w = (runFrom closes n s w).shift a := by
  induction w generalizing n s with
  | nil => rfl
  | cons x w ih =>
      rw [runFrom_cons, runFrom_cons, step_shift, Nat.add_assoc, ih]

@[simp] theorem State.flush_shift (a : ℕ) (s : State) :
    (s.shift a).flush = s.flush.map (Segment.shift a) := by
  rcases s with ⟨phase, done⟩
  cases phase <;> simp [State.flush, State.shift, Phase.shift, Segment.shift]

@[simp] theorem runFrom_idle_low (a n : ℕ) (done : List Segment) :
    runFrom closes n ⟨.idle, done⟩ (List.replicate a .low) = ⟨.idle, done⟩ := by
  induction a generalizing n with
  | zero => rfl
  | succ a ih => rw [List.replicate_succ, runFrom_cons]; exact ih (n + 1)

theorem segments_low_append (closes : ℕ → Bool) (a : ℕ) (w : List Level) :
    segments closes (List.replicate a .low ++ w) = (segments closes w).map (Segment.shift a) := by
  have hinit : State.init = State.init.shift a := rfl
  have hlow : runFrom closes 0 .init (List.replicate a .low) = .init := runFrom_idle_low a 0 []
  rw [segments_append, List.length_replicate, hlow]
  calc (runFrom closes a .init w).flush
      = (runFrom closes (a + 0) (State.init.shift a) w).flush := by rw [← hinit, Nat.add_zero]
    _ = (runFrom closes 0 .init w).flush.map (Segment.shift a) := by
        rw [runFrom_shift, State.flush_shift]
    _ = (segments closes w).map (Segment.shift a) := rfl

/-! ### Silence at the end

Low windows appended to the input can only close the segment that is open;
they do so exactly when the last of them is far enough from the window where
the silence began. -/

/-- The first low window makes the phase that of a silence beginning there. -/
theorem runFrom_active_low {b : ℕ} (hb : b ≠ 0) {n first : ℕ} (done : List Segment) :
    runFrom closes n ⟨.active first, done⟩ (List.replicate b .low) =
      runFrom closes n ⟨.pending first n, done⟩ (List.replicate b .low) := by
  obtain ⟨b, rfl⟩ := Nat.exists_eq_succ_of_ne_zero hb
  rfl

section Trailing

variable (mono : ∀ d e, d ≤ e → closes d = true → closes e = true)
include mono

theorem runFrom_pending_low (b : ℕ) {n first low : ℕ} (done : List Segment) (hlow : low ≤ n) :
    runFrom closes n ⟨.pending first low, done⟩ (List.replicate b .low) =
      if b ≠ 0 ∧ closes (n + b - 1 - low) then ⟨.idle, done ++ [⟨first, some low⟩]⟩
      else ⟨.pending first low, done⟩ := by
  induction b generalizing n with
  | zero => simp
  | succ b ih =>
      rw [List.replicate_succ, runFrom_cons]
      simp only [step, State.settle]
      rw [show n + (b + 1) - 1 - low = n + b - low by omega]
      by_cases hc : closes (n - low) = true
      · have hlast : closes (n + b - low) = true := mono _ _ (by omega) hc
        rw [if_pos hc, runFrom_idle_low, if_pos ⟨by omega, hlast⟩]
      · rw [if_neg hc, ih (by omega)]
        cases b with
        | zero => simp [hc]
        | succ b =>
            rw [show n + 1 + (b + 1) - 1 - low = n + (b + 1) - low by omega]
            simp

/-- Whether the open segment is closed, it is the last one. -/
theorem flush_runFrom_pending_low {b : ℕ} (hb : b ≠ 0) {n first low : ℕ} (done : List Segment)
    (hlow : low ≤ n) :
    (runFrom closes n ⟨.pending first low, done⟩ (List.replicate b .low)).flush =
      done ++ [⟨first, if closes (n + b - 1 - low) then some low else none⟩] := by
  rw [runFrom_pending_low mono b done hlow]
  by_cases hc : closes (n + b - 1 - low) = true
  · rw [if_pos ⟨hb, hc⟩, if_pos hc]
    rfl
  · rw [if_neg (fun h => hc h.2), if_neg hc]
    rfl

end Trailing

end Hysteresis
