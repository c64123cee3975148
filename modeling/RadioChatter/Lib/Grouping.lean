import RadioChatter.Lib.Segmenter
import Mathlib.Data.List.SplitBy
import Mathlib.Data.Nat.Basic

/-!
The segments of an input, read off the whole of it.

The high windows fall into groups: two neighbours belong together unless the
low windows strictly between them span a long enough silence. A group runs
from its first high window to the silence after its last one. Nothing here is
read in order; the theorem of this module is that the one-pass segmenter
computes exactly these groups.
-/

namespace Hysteresis

/-! ### Splitting a list that grows at its end -/

section SplitBy

variable {α : Type*} {r r' : α → α → Bool} {l : List α}

theorem splitBy_congr (h : ∀ a ∈ l, ∀ b ∈ l, r a b = r' a b) :
    l.splitBy r = l.splitBy r' := by
  have hsub : ∀ g ∈ l.splitBy r', ∀ a ∈ g, a ∈ l := by
    intro g hg a ha
    rw [← List.flatten_splitBy r' l]
    exact List.mem_flatten.mpr ⟨g, hg, ha⟩
  rw [List.splitBy_eq_iff]
  refine ⟨(List.flatten_splitBy r' l).symm, List.nil_notMem_splitBy r' l, ?_, ?_⟩
  · intro g hg
    have hchain := List.isChain_of_mem_splitBy hg
    refine hchain.imp_of_mem_imp ?_
    intro a b ha hb hab
    rw [h a (hsub g hg a ha) b (hsub g hg b hb)]
    exact hab
  · refine (List.isChain_getLast_head_splitBy r' l).imp_of_mem_imp ?_
    rintro g g' hg hg' ⟨hne, hne', hr⟩
    refine ⟨hne, hne', ?_⟩
    rw [h _ (hsub g hg _ (List.getLast_mem hne)) _ (hsub g' hg' _ (List.head_mem hne'))]
    exact hr

theorem splitBy_snoc_of_false {a : α} (h : ∀ x ∈ l.getLast?, r x a = false) :
    (l ++ [a]).splitBy r = l.splitBy r ++ [[a]] :=
  List.splitBy_append_cons [] h

theorem splitBy_snoc_of_true {a : α} {gs : List (List α)} {g : List α}
    (hsplit : l.splitBy r = gs ++ [g]) (h : ∀ x ∈ g.getLast?, r x a = true) :
    (l ++ [a]).splitBy r = gs ++ [g ++ [a]] := by
  obtain ⟨hflat, hnil, hchain, hcut⟩ := List.splitBy_eq_iff.mp hsplit
  have hg : g ≠ [] := fun hg => hnil (by simp [hg])
  rw [List.splitBy_eq_iff]
  refine ⟨by simp [hflat], ?_, ?_, ?_⟩
  · intro hmem
    rcases List.mem_append.mp hmem with hmem | hmem
    · exact hnil (List.mem_append_left _ hmem)
    · simp at hmem
  · intro m hm
    rcases List.mem_append.mp hm with hm | hm
    · exact hchain m (List.mem_append_left _ hm)
    · obtain rfl := List.mem_singleton.mp hm
      rw [List.isChain_append]
      refine ⟨hchain g (by simp), List.isChain_singleton a, ?_⟩
      intro x hx y hy
      obtain rfl : y = a := by simpa using hy.symm
      exact h x hx
  · rw [List.isChain_append] at hcut ⊢
    refine ⟨hcut.1, List.isChain_singleton _, ?_⟩
    intro x hx y hy
    obtain rfl : y = g ++ [a] := by simpa using hy.symm
    obtain ⟨hne, hne', hr⟩ := hcut.2.2 x hx g (by simp)
    exact ⟨hne, by simp, by rw [List.head_append_of_ne_nil hg]; exact hr⟩

end SplitBy

/-! ### The definition -/

/-- The high windows, in order. -/
def highs (w : List Level) : List ℕ :=
  (List.range w.length).filter fun k => w[k]? = some .high

/-- The low windows strictly between windows `a` and `b`, in order. -/
def lowsBetween (w : List Level) (a b : ℕ) : List ℕ :=
  (List.range b).filter fun k => a < k ∧ w[k]? = some .low

/-- The first low window between `a` and `b`, when the last one is far enough
from it. -/
def silence (closes : ℕ → Bool) (w : List Level) (a b : ℕ) : Option ℕ :=
  match (lowsBetween w a b).head?, (lowsBetween w a b).getLast? with
  | some j, some k => if closes (k - j) then some j else none
  | _, _ => none

/-- The high windows, cut wherever a silence separates two neighbours. -/
def groups (closes : ℕ → Bool) (w : List Level) : List (List ℕ) :=
  (highs w).splitBy fun a b => (silence closes w a b).isNone

/-- The high window after `h`, or the end of the input. -/
def nextHigh (w : List Level) (h : ℕ) : ℕ :=
  ((highs w).find? fun k => h < k).getD w.length

def groupFirst (g : List ℕ) : ℕ := g.headD 0

def groupLast (g : List ℕ) : ℕ := g.getLastD 0

/-- From the first window of the group to the silence after its last one. -/
def segmentOf (closes : ℕ → Bool) (w : List Level) (g : List ℕ) : Segment :=
  ⟨groupFirst g, silence closes w (groupLast g) (nextHigh w (groupLast g))⟩

/-- The segment that no silence has closed by the end of the input, if there
is one: its first window, and the window from which it has been quiet. -/
def openSegment (closes : ℕ → Bool) (w : List Level) : Option (ℕ × ℕ) :=
  match (groups closes w).getLast? with
  | none => none
  | some g =>
      match silence closes w (groupLast g) w.length with
      | some _ => none
      | none => some (groupFirst g, (lowsBetween w (groupLast g) w.length).head?.getD w.length)

/-! ### How the definition changes when a window is appended -/

variable {closes : ℕ → Bool} {w : List Level}

theorem lt_length_of_mem_highs {k : ℕ} (h : k ∈ highs w) : k < w.length := by
  simpa using (List.mem_filter.mp h).1

theorem pairwise_highs (w : List Level) : (highs w).Pairwise (· < ·) :=
  List.pairwise_lt_range.filter _

theorem highs_snoc (w : List Level) (x : Level) :
    highs (w ++ [x]) = highs w ++ if x = .high then [w.length] else [] := by
  have hold : (List.range w.length).filter (fun k => (w ++ [x])[k]? = some Level.high) =
      highs w := by
    refine List.filter_congr fun k hk => ?_
    rw [List.getElem?_append_left (by simpa using hk)]
  rw [highs, List.length_append, List.length_singleton, List.range_succ, List.filter_append, hold]
  congr 1
  by_cases hx : x = .high <;> simp [hx]

theorem lowsBetween_snoc_of_le (x : Level) (a : ℕ) {b : ℕ} (hb : b ≤ w.length) :
    lowsBetween (w ++ [x]) a b = lowsBetween w a b := by
  refine List.filter_congr fun k hk => ?_
  have hk' : k < b := by simpa using hk
  rw [List.getElem?_append_left (by omega)]

theorem lowsBetween_snoc (w : List Level) (x : Level) {a : ℕ} (ha : a < w.length) :
    lowsBetween (w ++ [x]) a (w.length + 1) =
      lowsBetween w a w.length ++ if x = .low then [w.length] else [] := by
  have hold := lowsBetween_snoc_of_le x a (Nat.le_refl w.length)
  unfold lowsBetween at hold ⊢
  rw [List.range_succ, List.filter_append, hold]
  congr 1
  by_cases hx : x = .low <;> simp [hx, ha]

theorem silence_snoc_of_le (x : Level) (a : ℕ) {b : ℕ} (hb : b ≤ w.length) :
    silence closes (w ++ [x]) a b = silence closes w a b := by
  simp only [silence, lowsBetween_snoc_of_le x a hb]

theorem nextHigh_le (w : List Level) (h : ℕ) : nextHigh w h ≤ w.length := by
  unfold nextHigh
  cases hfind : (highs w).find? fun k => decide (h < k) with
  | none => exact Nat.le_refl _
  | some k => exact Nat.le_of_lt (lt_length_of_mem_highs (List.mem_of_find?_eq_some hfind))

theorem nextHigh_snoc_of_lt (x : Level) {h k : ℕ} (hk : k ∈ highs w) (hlt : h < k) :
    nextHigh (w ++ [x]) h = nextHigh w h := by
  have hsome : ((highs w).find? fun k => decide (h < k)).isSome :=
    List.find?_isSome.mpr ⟨k, hk, by simpa using hlt⟩
  obtain ⟨m, hm⟩ := Option.isSome_iff_exists.mp hsome
  simp [nextHigh, highs_snoc, List.find?_append, hm]

theorem segmentOf_snoc (x : Level) {g : List ℕ} {k : ℕ} (hk : k ∈ highs w)
    (hlt : groupLast g < k) : segmentOf closes (w ++ [x]) g = segmentOf closes w g := by
  unfold segmentOf
  rw [nextHigh_snoc_of_lt x hk hlt, silence_snoc_of_le x _ (nextHigh_le w _)]

theorem groups_snoc_of_ne_high {x : Level} (hx : x ≠ .high) :
    groups closes (w ++ [x]) = groups closes w := by
  unfold groups
  rw [highs_snoc, if_neg hx, List.append_nil]
  refine splitBy_congr fun a _ b hb => ?_
  rw [silence_snoc_of_le x a (Nat.le_of_lt (lt_length_of_mem_highs hb))]

@[simp] theorem lowsBetween_self_succ (w : List Level) (a : ℕ) : lowsBetween w a (a + 1) = [] := by
  refine List.filter_eq_nil_iff.mpr fun k hk => ?_
  have hk' : k < a + 1 := by simpa using hk
  simp only [decide_eq_true_eq, not_and]
  omega

@[simp] theorem silence_self_succ (w : List Level) (a : ℕ) : silence closes w a (a + 1) = none := by
  simp [silence, lowsBetween_self_succ]

/-- What the last group is, among the high windows. -/
structure LastGroup (w : List Level) (gs : List (List ℕ)) (g : List ℕ) : Prop where
  ne_nil : g ≠ []
  getLast?_highs : (highs w).getLast? = some (groupLast g)
  lt_length : groupLast g < w.length
  earlier : ∀ g₀ ∈ gs, groupLast g₀ < groupLast g
  next : nextHigh w (groupLast g) = w.length

theorem groupLast_eq_getLast {g : List ℕ} (h : g ≠ []) : groupLast g = g.getLast h := by
  rw [groupLast, List.getLastD_eq_getLast?, List.getLast?_eq_some_getLast h, Option.getD_some]

theorem groupLast_eq_of_getLast? {g : List ℕ} {k : ℕ} (h : g.getLast? = some k) :
    groupLast g = k := by
  rw [groupLast, List.getLastD_eq_getLast?, h, Option.getD_some]

@[simp] theorem groupLast_snoc (g : List ℕ) (k : ℕ) : groupLast (g ++ [k]) = k :=
  groupLast_eq_of_getLast? List.getLast?_concat

theorem groupFirst_append {g : List ℕ} (h : g ≠ []) (g' : List ℕ) :
    groupFirst (g ++ g') = groupFirst g := by
  cases g with
  | nil => exact absurd rfl h
  | cons i g => rfl

theorem lastGroup {gs : List (List ℕ)} {g : List ℕ} (hsplit : groups closes w = gs ++ [g]) :
    LastGroup w gs g := by
  obtain ⟨hflat, hnil, -, -⟩ := List.splitBy_eq_iff.mp hsplit
  have hne : g ≠ [] := fun hg => hnil (by simp [hg])
  have hhighs : highs w = gs.flatten ++ g := by simpa using hflat
  have hmem : groupLast g ∈ highs w := by
    rw [hhighs, groupLast_eq_getLast hne]
    exact List.mem_append_right _ (List.getLast_mem hne)
  have hlast : (highs w).getLast? = some (groupLast g) := by
    rw [hhighs, List.getLast?_append_of_ne_nil _ hne, List.getLast?_eq_some_getLast hne,
      groupLast_eq_getLast hne]
  have hsorted := pairwise_highs w
  refine ⟨hne, hlast, lt_length_of_mem_highs hmem, ?_, ?_⟩
  · intro g₀ hg₀
    have hne₀ : g₀ ≠ [] := fun h => hnil (List.mem_append_left _ (h ▸ hg₀))
    rw [hhighs, List.pairwise_append] at hsorted
    rw [groupLast_eq_getLast hne₀, groupLast_eq_getLast hne]
    exact hsorted.2.2 _ (List.mem_flatten.mpr ⟨g₀, hg₀, List.getLast_mem hne₀⟩) _
      (List.getLast_mem hne)
  · have hmax : ∀ k ∈ highs w, ¬ groupLast g < k := by
      intro k hk hlt
      obtain ⟨front, hfront⟩ : ∃ front, highs w = front ++ [groupLast g] :=
        List.getLast?_eq_some_iff.mp hlast
      rw [hfront] at hk hsorted
      rcases List.mem_append.mp hk with hk | hk
      · have := (List.pairwise_append.mp hsorted).2.2 k hk _ (List.mem_singleton_self _)
        omega
      · have := List.mem_singleton.mp hk
        omega
    have hfind : ((highs w).find? fun k => decide (groupLast g < k)) = none :=
      List.find?_eq_none.mpr fun k hk => by simpa using hmax k hk
    rw [nextHigh, hfind, Option.getD_none]

theorem LastGroup.map_segmentOf {gs : List (List ℕ)} {g : List ℕ} (h : LastGroup w gs g)
    (x : Level) : gs.map (segmentOf closes (w ++ [x])) = gs.map (segmentOf closes w) := by
  refine List.map_congr_left fun g₀ hg₀ => ?_
  exact segmentOf_snoc x (List.mem_of_getLast? h.getLast?_highs) (h.earlier g₀ hg₀)

theorem LastGroup.segmentOf_high {gs : List (List ℕ)} {g : List ℕ} (h : LastGroup w gs g) :
    segmentOf closes (w ++ [.high]) g =
      ⟨groupFirst g, silence closes w (groupLast g) w.length⟩ := by
  have hnone : ((highs w).find? fun k => decide (groupLast g < k)) = none := by
    cases hfind : (highs w).find? fun k => decide (groupLast g < k) with
    | none => rfl
    | some k =>
        have hk := h.next
        have hlt := lt_length_of_mem_highs (List.mem_of_find?_eq_some hfind)
        simp only [nextHigh, hfind, Option.getD_some] at hk
        omega
  have hnext : nextHigh (w ++ [.high]) (groupLast g) = w.length := by
    simp only [nextHigh, highs_snoc, if_true, List.find?_append, hnone, Option.none_or]
    simp [h.lt_length]
  rw [segmentOf, hnext, silence_snoc_of_le _ _ (Nat.le_refl _)]

/-! ### The segmenter computes the groups -/

/-- The state of the segmenter when `g` is the last group and `gs` are the
groups before it. -/
def stateFor (closes : ℕ → Bool) (w : List Level) (gs : List (List ℕ)) (g : List ℕ) : State :=
  match silence closes w (groupLast g) w.length with
  | some j => ⟨.idle, gs.map (segmentOf closes w) ++ [⟨groupFirst g, some j⟩]⟩
  | none =>
      match (lowsBetween w (groupLast g) w.length).head? with
      | none => ⟨.active (groupFirst g), gs.map (segmentOf closes w)⟩
      | some j => ⟨.pending (groupFirst g) j, gs.map (segmentOf closes w)⟩

theorem stateFor_middle {gs : List (List ℕ)} {g : List ℕ} (h : LastGroup w gs g) :
    stateFor closes (w ++ [.middle]) gs g = stateFor closes w gs g := by
  simp only [stateFor, silence, List.length_append, List.length_singleton,
    lowsBetween_snoc w _ h.lt_length, h.map_segmentOf]
  simp

theorem step_high_stateFor_of_none {gs : List (List ℕ)} {g : List ℕ}
    (hnone : silence closes w (groupLast g) w.length = none) :
    step closes w.length (stateFor closes w gs g) .high =
      ⟨.active (groupFirst g), gs.map (segmentOf closes w)⟩ := by
  simp only [stateFor, hnone]
  cases (lowsBetween w (groupLast g) w.length).head? <;> rfl

theorem stateFor_snoc_high {gs : List (List ℕ)} {g : List ℕ} :
    stateFor closes (w ++ [.high]) gs (g ++ [w.length]) =
      ⟨.active (groupFirst (g ++ [w.length])), gs.map (segmentOf closes (w ++ [.high]))⟩ := by
  have hlen : (w ++ [Level.high]).length = w.length + 1 := by simp
  simp only [stateFor, groupLast_snoc, hlen, silence_self_succ, lowsBetween_self_succ,
    List.head?_nil]

/-- The state in which the definition puts the segmenter after `w`. -/
def Tracks (closes : ℕ → Bool) (w : List Level) (s : State) : Prop :=
  (groups closes w = [] ∧ s = .init) ∨
    ∃ gs g, groups closes w = gs ++ [g] ∧ s = stateFor closes w gs g

theorem Tracks.middle {s : State} (h : Tracks closes w s) :
    Tracks closes (w ++ [.middle]) (step closes w.length s .middle) := by
  have hsame : groups closes (w ++ [.middle]) = groups closes w :=
    groups_snoc_of_ne_high (by decide)
  rcases h with ⟨hnil, rfl⟩ | ⟨gs, g, hgroups, rfl⟩
  · exact Or.inl ⟨hsame.trans hnil, rfl⟩
  · exact Or.inr ⟨gs, g, hsame.trans hgroups, (stateFor_middle (lastGroup hgroups)).symm⟩

theorem highs_snoc_high (w : List Level) : highs (w ++ [.high]) = highs w ++ [w.length] := by
  simp [highs_snoc]

/-- The old high windows are cut where they were. -/
theorem splitBy_snoc_high (w : List Level) :
    (highs w).splitBy (fun a b => (silence closes (w ++ [.high]) a b).isNone) =
      groups closes w := by
  apply splitBy_congr
  intro a _ b hb
  rw [silence_snoc_of_le _ a (Nat.le_of_lt (lt_length_of_mem_highs hb))]

/-- A high window joins the last group. -/
theorem groups_snoc_high_of_none {gs : List (List ℕ)} {g : List ℕ}
    (hgroups : groups closes w = gs ++ [g])
    (hnone : silence closes w (groupLast g) w.length = none) :
    groups closes (w ++ [.high]) = gs ++ [g ++ [w.length]] := by
  rw [groups, highs_snoc_high]
  apply splitBy_snoc_of_true ((splitBy_snoc_high w).trans hgroups)
  intro y hy
  obtain rfl : groupLast g = y := groupLast_eq_of_getLast? hy
  rw [silence_snoc_of_le _ _ (Nat.le_refl _), hnone]
  rfl

/-- Behind a silence, a high window begins a group. -/
theorem groups_snoc_high_of_some {gs : List (List ℕ)} {g : List ℕ} {j : ℕ}
    (hgroups : groups closes w = gs ++ [g])
    (hsome : silence closes w (groupLast g) w.length = some j) :
    groups closes (w ++ [.high]) = gs ++ [g] ++ [[w.length]] := by
  rw [groups, highs_snoc_high, splitBy_snoc_of_false, splitBy_snoc_high, hgroups]
  intro y hy
  obtain rfl : y = groupLast g := by
    rw [(lastGroup hgroups).getLast?_highs] at hy
    simpa using hy.symm
  rw [silence_snoc_of_le _ _ (Nat.le_refl _), hsome]
  rfl

theorem Tracks.high {s : State} (h : Tracks closes w s) :
    Tracks closes (w ++ [.high]) (step closes w.length s .high) := by
  right
  rcases h with ⟨hnil, rfl⟩ | ⟨gs, g, hgroups, rfl⟩
  · -- The first group of all.
    have hw : highs w = [] := List.splitBy_eq_nil.mp hnil
    refine ⟨[], [w.length], by simp [groups, highs_snoc_high, hw]; rfl, ?_⟩
    rw [show [w.length] = [] ++ [w.length] from rfl, stateFor_snoc_high]
    rfl
  · have hlast := lastGroup hgroups
    cases hs : silence closes w (groupLast g) w.length with
    | none =>
        refine ⟨gs, g ++ [w.length], groups_snoc_high_of_none hgroups hs, ?_⟩
        rw [step_high_stateFor_of_none hs, stateFor_snoc_high, hlast.map_segmentOf,
          groupFirst_append hlast.ne_nil]
    | some j =>
        refine ⟨gs ++ [g], [w.length], groups_snoc_high_of_some hgroups hs, ?_⟩
        rw [show [w.length] = [] ++ [w.length] from rfl, stateFor_snoc_high]
        simp [stateFor, hs, step, hlast.map_segmentOf, hlast.segmentOf_high]
        rfl

section Refines

variable (mono : ∀ d e, d ≤ e → closes d = true → closes e = true)
include mono

theorem step_low_stateFor {gs : List (List ℕ)} {g : List ℕ} (h : LastGroup w gs g) :
    step closes w.length (stateFor closes w gs g) .low =
      stateFor closes (w ++ [.low]) gs g := by
  have hlows := lowsBetween_snoc w .low h.lt_length
  have hlen : (w ++ [Level.low]).length = w.length + 1 := by simp
  simp only [if_true] at hlows
  simp only [stateFor, silence, hlen, hlows, h.map_segmentOf]
  cases hl : lowsBetween w (groupLast g) w.length with
  | nil => simp [step, State.settle]; split <;> rfl
  | cons j ls =>
      have hlast : ((j :: ls) ++ [w.length]).getLast? = some w.length := List.getLast?_concat
      obtain ⟨k, hk⟩ : ∃ k, (j :: ls).getLast? = some k := ⟨_, List.getLast?_cons⟩
      have hkw : k < w.length := by
        have hmem : k ∈ lowsBetween w (groupLast g) w.length := hl ▸ List.mem_of_getLast? hk
        simpa using (List.mem_filter.mp hmem).1
      rw [List.cons_append] at hlast
      simp only [hlast, hk, List.head?_cons, List.cons_append]
      by_cases hc : closes (k - j) = true
      · have hc' : closes (w.length - j) = true := mono _ _ (by omega) hc
        simp only [hc, hc', step, if_true]
      · simp only [hc, Bool.false_eq_true, if_false, step, State.settle]
        by_cases hc' : closes (w.length - j) = true <;> simp [hc']

theorem Tracks.low {s : State} (h : Tracks closes w s) :
    Tracks closes (w ++ [.low]) (step closes w.length s .low) := by
  have hsame : groups closes (w ++ [.low]) = groups closes w := groups_snoc_of_ne_high (by decide)
  rcases h with ⟨hnil, rfl⟩ | ⟨gs, g, hgroups, rfl⟩
  · exact Or.inl ⟨hsame.trans hnil, rfl⟩
  · exact Or.inr ⟨gs, g, hsame.trans hgroups, step_low_stateFor mono (lastGroup hgroups)⟩

/-- The segmenter is always where the definition says. -/
theorem tracks_run (w : List Level) : Tracks closes w (runFrom closes 0 .init w) := by
  induction w using List.reverseRecOn with
  | nil => exact Or.inl ⟨rfl, rfl⟩
  | append_singleton w x ih =>
      rw [runFrom_snoc]
      cases x with
      | low => exact ih.low mono
      | middle => exact ih.middle
      | high => exact ih.high

/-- **One pass suffices.** The segmenter returns the segments of the groups. -/
theorem segments_eq_groups (w : List Level) :
    segments closes w = (groups closes w).map (segmentOf closes w) := by
  unfold segments
  rcases tracks_run mono w with ⟨hnil, hrun⟩ | ⟨gs, g, hgroups, hrun⟩
  · rw [hrun, hnil]
    rfl
  · have hlast := lastGroup hgroups
    rw [hrun, hgroups, List.map_append, List.map_singleton, segmentOf, hlast.next]
    unfold stateFor
    cases hs : silence closes w (groupLast g) w.length with
    | some j => rfl
    | none => cases (lowsBetween w (groupLast g) w.length).head? <;> rfl

/-- Silence after the end of the input touches the open segment only. -/
theorem segments_append_low (w : List Level) :
    ∃ done : List Segment, (∀ g ∈ done, g.quiet.isSome) ∧
      match openSegment closes w with
      | none => ∀ b, segments closes (w ++ List.replicate b .low) = done
      | some (i, q) => q ≤ w.length ∧ segments closes w = done ++ [⟨i, none⟩] ∧
          ∀ b, b ≠ 0 → segments closes (w ++ List.replicate b .low) =
            done ++ [⟨i, if closes (w.length + b - 1 - q) then some q else none⟩] := by
  have hsound := sound_run closes w
  refine ⟨(runFrom closes 0 .init w).done, hsound.quiet_isSome, ?_⟩
  simp only [segments_append]
  rcases tracks_run mono w with ⟨hnil, hrun⟩ | ⟨gs, g, hgroups, hrun⟩
  · rw [hrun]
    simp only [openSegment, hnil, List.getLast?_nil]
    intro b
    rw [State.init, runFrom_idle_low]
    rfl
  · simp only [openSegment, hgroups, List.getLast?_concat]
    unfold segments
    cases hs : silence closes w (groupLast g) w.length with
    | some j =>
        simp only [stateFor, hs] at hrun
        rw [hrun]
        intro b
        rw [runFrom_idle_low]
        rfl
    | none =>
        cases hl : (lowsBetween w (groupLast g) w.length).head? with
        | none =>
            simp only [stateFor, hs, hl] at hrun
            rw [hrun]
            refine ⟨Nat.le_refl _, rfl, fun b hb => ?_⟩
            rw [runFrom_active_low hb]
            exact flush_runFrom_pending_low mono hb _ (Nat.le_refl _)
        | some j =>
            simp only [stateFor, hs, hl] at hrun
            rw [hrun] at hsound ⊢
            have hj : j ≤ w.length := Nat.le_of_lt hsound.phase.2
            exact ⟨hj, rfl, fun b hb => flush_runFrom_pending_low mono hb _ hj⟩

end Refines

end Hysteresis
