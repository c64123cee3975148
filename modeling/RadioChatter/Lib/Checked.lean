import Mathlib.Data.List.Basic

/-!
Operations that C and C++ leave undefined outside their domain. Each one
answers with the fault it would commit instead of computing something, so
that the absence of faults is a statement about a run and not an assumption.
-/

namespace Checked

universe u

/-- The ways a step can leave the defined part of the language. -/
inductive Fault
  | outOfBounds
  | uninitialised
  | emptyBack
  | overflow
  deriving DecidableEq, Repr

variable {α : Type*}

/-- The elements of `xs` from position `lo` up to position `hi`. -/
def slice (xs : List α) (lo hi : ℕ) : Except Fault (List α) :=
  if lo ≤ hi ∧ hi ≤ xs.length then .ok ((xs.take hi).drop lo) else .error .outOfBounds

/-- Overwrite `dst` with `src` from position `off` on. -/
def blit (dst : List α) (off : ℕ) (src : List α) : Except Fault (List α) :=
  if off + src.length ≤ dst.length then
    .ok (dst.take off ++ src ++ dst.drop (off + src.length))
  else .error .outOfBounds

/-- The last `k` elements of `xs`. -/
def takeEnd (xs : List α) (k : ℕ) : Except Fault (List α) :=
  if k ≤ xs.length then .ok (xs.drop (xs.length - k)) else .error .outOfBounds

theorem takeEnd_eq_ok {xs : List α} {k : ℕ} (h : k ≤ xs.length) :
    takeEnd xs k = .ok (xs.drop (xs.length - k)) :=
  if_pos h

theorem slice_eq_ok {xs : List α} {lo hi : ℕ} (hlo : lo ≤ hi) (hhi : hi ≤ xs.length) :
    slice xs lo hi = .ok ((xs.take hi).drop lo) :=
  if_pos ⟨hlo, hhi⟩

theorem blit_eq_ok {dst src : List α} {off : ℕ} (h : off + src.length ≤ dst.length) :
    blit dst off src = .ok (dst.take off ++ src ++ dst.drop (off + src.length)) :=
  if_pos h

/-- A block copied over a buffer of its own length replaces it. -/
theorem blit_all {dst src : List α} (h : src.length = dst.length) :
    blit dst 0 src = .ok src := by
  rw [blit_eq_ok (by omega)]
  simp [h]

/-- Copying never changes the length of the buffer. -/
theorem length_of_blit {dst src out : List α} {off : ℕ} (h : blit dst off src = .ok out) :
    out.length = dst.length := by
  unfold blit at h
  split at h
  · obtain rfl := Except.ok.inj h
    simp
    omega
  · cases h

theorem bind_eq_ok {ε : Type*} {α β : Type u} {x : Except ε α} {f : α → Except ε β} {b : β} :
    x >>= f = .ok b ↔ ∃ a, x = .ok a ∧ f a = .ok b := by
  cases x with
  | error fault => simp [bind, Except.bind]
  | ok a => simp [bind, Except.bind]

/-- What every step of a fold preserves, the fold preserves. -/
theorem foldlM_invariant {σ : Type u} {f : σ → α → Except Fault σ} (I : σ → Prop)
    (hstep : ∀ s a s', I s → f s a = .ok s' → I s') (xs : List α) {s s' : σ} (hI : I s)
    (h : xs.foldlM f s = .ok s') : I s' := by
  induction xs generalizing s with
  | nil =>
      obtain rfl := Except.ok.inj h
      exact hI
  | cons a xs ih =>
      rw [List.foldlM_cons, bind_eq_ok] at h
      obtain ⟨t, ht, h⟩ := h
      exact ih (hstep s a t hI ht) h

/-! ### Two computations side by side -/

section Rel

variable {α β γ δ : Type u} {R : α → β → Prop} {S : γ → δ → Prop}

/-- The two computations commit the same fault, or neither does and their
results are related. -/
inductive Rel (R : α → β → Prop) : Except Fault α → Except Fault β → Prop
  | fault (fault : Fault) : Rel R (.error fault) (.error fault)
  | ok {a : α} {b : β} (h : R a b) : Rel R (.ok a) (.ok b)

theorem Rel.eq {x y : Except Fault α} (h : Rel (· = ·) x y) : x = y := by
  cases h with
  | fault fault => rfl
  | ok h => rw [h]

theorem Rel.bind {x : Except Fault α} {y : Except Fault β} {f : α → Except Fault γ}
    {g : β → Except Fault δ} (h : Rel R x y) (hfg : ∀ a b, R a b → Rel S (f a) (g b)) :
    Rel S (x >>= f) (y >>= g) := by
  cases h with
  | fault fault => exact .fault fault
  | ok h => exact hfg _ _ h

/-- The two computations begin with the same step. -/
theorem Rel.bind_same {x : Except Fault α} {f : α → Except Fault γ} {g : α → Except Fault δ}
    (hfg : ∀ a, Rel S (f a) (g a)) : Rel S (x >>= f) (x >>= g) := by
  cases x with
  | error fault => exact .fault fault
  | ok a => exact hfg a

theorem Rel.foldlM {ι : Type*} {f : α → ι → Except Fault α} {g : β → ι → Except Fault β}
    (hstep : ∀ a b i, R a b → Rel R (f a i) (g b i)) (l : List ι) {a : α} {b : β} (h : R a b) :
    Rel R (l.foldlM f a) (l.foldlM g b) := by
  induction l generalizing a b with
  | nil => exact .ok h
  | cons i l ih =>
      rw [List.foldlM_cons, List.foldlM_cons]
      apply Rel.bind (hstep a b i h)
      intro a' b' h'
      exact ih h'

end Rel

end Checked
