import Mathlib.Data.List.Basic
import Mathlib.Data.Nat.Notation

/-!
Systems that several parties move, in whatever order.

`step` says where an action leads, or that it cannot happen in a state, and
`exec` follows a whole schedule of actions. A fact about every interleaving is
proved for one action at a time; how many actions of a party a schedule can
hold is bounded by a potential that they use up.
-/

namespace Schedule

variable {σ α : Type*} {step : σ → α → Option σ}

/-- The state behind a schedule, if all of its actions can happen. -/
def exec (step : σ → α → Option σ) (s : σ) (acts : List α) : Option σ :=
  acts.foldlM step s

@[simp] theorem exec_nil (s : σ) : exec step s [] = some s := rfl

theorem exec_cons {s s' : σ} {a : α} {acts : List α} :
    exec step s (a :: acts) = some s' ↔ ∃ t, step s a = some t ∧ exec step t acts = some s' := by
  rw [exec, List.foldlM_cons, Option.bind_eq_bind, Option.bind_eq_some_iff]
  rfl

/-- **The invariant rule.** What every action keeps holds behind every
schedule; an action of the schedule may be taken to be one that `p` allows. -/
theorem exec_invariant (I : σ → Prop) (p : α → Prop)
    (hstep : ∀ s a s', I s → p a → step s a = some s' → I s') {s s' : σ} {acts : List α}
    (hI : I s) (hacts : ∀ a ∈ acts, p a) (hexec : exec step s acts = some s') : I s' := by
  induction acts generalizing s with
  | nil =>
      obtain rfl : s = s' := Option.some.inj hexec
      exact hI
  | cons a acts ih =>
      obtain ⟨t, ht, hrest⟩ := exec_cons.mp hexec
      have hIt : I t := hstep s a t hI (hacts a List.mem_cons_self) ht
      exact ih hIt (fun b hb => hacts b (List.mem_cons_of_mem a hb)) hrest

/-- **The counting rule.** Where the actions of a kind each lower a potential
that nothing raises, a schedule holds no more of them than there is potential. -/
theorem exec_count_le (I : σ → Prop) (p : α → Bool) (V : σ → ℕ)
    (hstep : ∀ s a s', I s → step s a = some s' → I s' ∧ V s' + (p a).toNat ≤ V s)
    {s s' : σ} {acts : List α} (hI : I s) (hexec : exec step s acts = some s') :
    acts.countP p + V s' ≤ V s := by
  induction acts generalizing s with
  | nil =>
      obtain rfl : s = s' := Option.some.inj hexec
      exact Nat.le_of_eq (by rw [List.countP_nil, Nat.zero_add])
  | cons a acts ih =>
      obtain ⟨t, ht, hrest⟩ := exec_cons.mp hexec
      obtain ⟨hIt, hV⟩ := hstep s a t hI ht
      have hle := ih hIt hrest
      rw [List.countP_cons]
      cases hp : p a with
      | false =>
          rw [hp, Bool.toNat_false] at hV
          simp only [Bool.false_eq_true, if_false]
          omega
      | true =>
          rw [hp, Bool.toNat_true] at hV
          simp only [if_true]
          omega

end Schedule
