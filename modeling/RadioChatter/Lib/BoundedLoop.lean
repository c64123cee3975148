import Mathlib.Order.Basic
import Mathlib.Data.Nat.Notation
import Mathlib.Logic.Relation

/-!
Loops that need not terminate.

A loop body maps a state either to the next state (`.inl`) or to the value
with which the loop is left (`.inr`). `run` gives it a number of iterations
and answers `none` when they do not suffice, so that termination is a theorem
about a loop and not a premise of its definition.
-/

namespace BoundedLoop

variable {σ σ' ρ ρ' : Type*}

/-- Run `body` until it leaves the loop, at most `fuel` times. -/
def run (body : σ → σ ⊕ ρ) : ℕ → σ → Option ρ
  | 0, _ => none
  | fuel + 1, s =>
      match body s with
      | .inl s' => run body fuel s'
      | .inr r => some r

@[simp] theorem run_zero (body : σ → σ ⊕ ρ) (s : σ) : run body 0 s = none := rfl

theorem run_of_inl {body : σ → σ ⊕ ρ} {s s' : σ} (h : body s = .inl s') (fuel : ℕ) :
    run body (fuel + 1) s = run body fuel s' := by
  simp [run, h]

theorem run_of_inr {body : σ → σ ⊕ ρ} {s : σ} {r : ρ} (h : body s = .inr r) (fuel : ℕ) :
    run body (fuel + 1) s = some r := by
  simp [run, h]

/-- A loop only looks at its state through the body. -/
theorem run_congr {body : σ → σ ⊕ ρ} {s s' : σ} (h : body s = body s') (fuel : ℕ) :
    run body fuel s = run body fuel s' := by
  cases fuel with
  | zero => rfl
  | succ fuel => rw [run, run, h]

/-- **The invariant rule.** What every iteration preserves and every exit
turns into `Q` gives `Q` of whatever the loop returns. -/
theorem run_invariant {body : σ → σ ⊕ ρ} (I : σ → Prop) (Q : ρ → Prop)
    (hstep : ∀ s s', I s → body s = .inl s' → I s')
    (hexit : ∀ s r, I s → body s = .inr r → Q r)
    {fuel : ℕ} {s : σ} {r : ρ} (hI : I s) (hrun : run body fuel s = some r) : Q r := by
  induction fuel generalizing s with
  | zero => simp at hrun
  | succ fuel ih =>
      cases hbody : body s with
      | inl s' =>
          rw [run_of_inl hbody] at hrun
          exact ih (hstep s s' hI hbody) hrun
      | inr r' =>
          rw [run_of_inr hbody] at hrun
          obtain rfl : r' = r := Option.some.inj hrun
          exact hexit s r' hI hbody

/-- **The variant rule.** A loop whose iterations lower `V` returns within
`V s + 1` of them. -/
theorem run_terminates {body : σ → σ ⊕ ρ} (I : σ → Prop) (V : σ → ℕ)
    (hstep : ∀ s s', I s → body s = .inl s' → I s' ∧ V s' < V s)
    {fuel : ℕ} {s : σ} (hI : I s) (hfuel : V s < fuel) :
    ∃ r, run body fuel s = some r := by
  induction fuel generalizing s with
  | zero => omega
  | succ fuel ih =>
      cases hbody : body s with
      | inl s' =>
          obtain ⟨hI', hV⟩ := hstep s s' hI hbody
          rw [run_of_inl hbody]
          exact ih hI' (by omega)
      | inr r => exact ⟨r, run_of_inr hbody fuel⟩

/-- **The divergence rule.** A loop that no state of the invariant leaves does
not return, however many iterations it is given. -/
theorem run_eq_none {body : σ → σ ⊕ ρ} (I : σ → Prop)
    (hstep : ∀ s, I s → ∃ s', body s = .inl s' ∧ I s') (fuel : ℕ) {s : σ} (hI : I s) :
    run body fuel s = none := by
  induction fuel generalizing s with
  | zero => rfl
  | succ fuel ih =>
      obtain ⟨s', hbody, hI'⟩ := hstep s hI
      rw [run_of_inl hbody]
      exact ih hI'

/-- **The counting rule.** A loop that goes through the states `s 0, …, s n`
and is left at the last one. -/
theorem run_of_trace {body : σ → σ ⊕ ρ} {n : ℕ} {s : ℕ → σ} {r : ρ}
    (hstep : ∀ k < n, body (s k) = .inl (s (k + 1))) (hexit : body (s n) = .inr r)
    {fuel : ℕ} (hfuel : n < fuel) : run body fuel (s 0) = some r := by
  induction n generalizing s fuel with
  | zero =>
      obtain ⟨fuel, rfl⟩ := Nat.exists_eq_add_of_lt hfuel
      rw [Nat.zero_add]
      exact run_of_inr hexit fuel
  | succ n ih =>
      obtain ⟨fuel, rfl⟩ := Nat.exists_eq_add_of_lt hfuel
      rw [run_of_inl (hstep 0 (Nat.succ_pos n))]
      apply ih (s := fun k => s (k + 1))
      · intro k hk
        exact hstep (k + 1) (Nat.succ_lt_succ hk)
      · exact hexit
      · omega

/-- **The simulation rule.** Two loops whose bodies keep `R` between their
states, and `Q` between what they return, return `Q`-related results. -/
theorem run_rel {body : σ → σ ⊕ ρ} {body' : σ' → σ' ⊕ ρ'} (R : σ → σ' → Prop)
    (Q : ρ → ρ' → Prop)
    (hbody : ∀ s s', R s s' → Sum.LiftRel R Q (body s) (body' s'))
    (fuel : ℕ) {s : σ} {s' : σ'} (hR : R s s') :
    Option.Rel Q (run body fuel s) (run body' fuel s') := by
  induction fuel generalizing s s' with
  | zero => exact .none
  | succ fuel ih =>
      have hlift := hbody s s' hR
      cases hb : body s with
      | inl t =>
          cases hb' : body' s' with
          | inl t' =>
              rw [hb, hb', Sum.liftRel_inl_inl] at hlift
              rw [run_of_inl hb, run_of_inl hb']
              exact ih hlift
          | inr r' => simp [hb, hb'] at hlift
      | inr r =>
          cases hb' : body' s' with
          | inl t' => simp [hb, hb'] at hlift
          | inr r' =>
              rw [hb, hb', Sum.liftRel_inr_inr] at hlift
              rw [run_of_inr hb, run_of_inr hb']
              exact .some hlift

/-! ### The states of a loop -/

/-- The loop that begins at `s` comes to the test of its body at `t`. -/
def Reachable (body : σ → σ ⊕ ρ) : σ → σ → Prop :=
  Relation.ReflTransGen fun s s' => body s = .inl s'

theorem Reachable.invariant {body : σ → σ ⊕ ρ} (I : σ → Prop)
    (hstep : ∀ s s', I s → body s = .inl s' → I s') {s t : σ} (h : Reachable body s t)
    (hI : I s) : I t := by
  induction h with
  | refl => exact hI
  | tail _ hbody ih => exact hstep _ _ ih hbody

/-- A loop that returns is left at a state that it reaches. -/
theorem exists_exit_of_run {body : σ → σ ⊕ ρ} {fuel : ℕ} {s : σ} {r : ρ}
    (hrun : run body fuel s = some r) : ∃ t, Reachable body s t ∧ body t = .inr r := by
  induction fuel generalizing s with
  | zero => simp at hrun
  | succ fuel ih =>
      cases hbody : body s with
      | inl s' =>
          rw [run_of_inl hbody] at hrun
          obtain ⟨t, hreach, hexit⟩ := ih hrun
          exact ⟨t, Relation.ReflTransGen.head hbody hreach, hexit⟩
      | inr r' =>
          rw [run_of_inr hbody] at hrun
          obtain rfl : r' = r := Option.some.inj hrun
          exact ⟨s, Relation.ReflTransGen.refl, hbody⟩

/-- A loop returns what the exit that it reaches returns. -/
theorem run_eq_of_exit {body : σ → σ ⊕ ρ} {s t : σ} {r r' : ρ} (hreach : Reachable body s t)
    (hexit : body t = .inr r) {fuel : ℕ} (hrun : run body fuel s = some r') : r' = r := by
  induction hreach using Relation.ReflTransGen.head_induction_on generalizing fuel with
  | refl =>
      cases fuel with
      | zero => simp at hrun
      | succ fuel =>
          rw [run_of_inr hexit] at hrun
          exact (Option.some.inj hrun).symm
  | head hbody _ ih =>
      cases fuel with
      | zero => simp at hrun
      | succ fuel =>
          rw [run_of_inl hbody] at hrun
          exact ih hrun

end BoundedLoop
