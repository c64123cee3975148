import Mathlib.Data.List.Basic

/-!
Overlapping windows of a list.

Window `j` is the chunk of `W` elements that begins at `j * W`, together with
the `C` elements before it; in front of the list stand `C` copies of a filler.
A reader that takes the list chunk by chunk has the windows if it keeps the
last `C` elements of each one for the next.
-/

namespace Overlap

variable {α : Type*} (z : α) (C W : ℕ) (xs : List α)

def pad : List α := List.replicate C z ++ xs

/-- What stands in front of chunk `j`. -/
def context (j : ℕ) : List α := ((pad z C xs).drop (j * W)).take C

def window (j : ℕ) : List α := ((pad z C xs).drop (j * W)).take (C + W)

variable {z C W xs}

@[simp] theorem length_pad : (pad z C xs).length = C + xs.length := by
  simp [pad]

@[simp] theorem context_zero : context z C W xs 0 = List.replicate C z := by
  simp [context, pad]

@[simp] theorem length_context {j : ℕ} (h : j * W ≤ xs.length) :
    (context z C W xs j).length = C := by
  rw [context, List.length_take, List.length_drop, length_pad]
  omega

@[simp] theorem length_window {j : ℕ} (h : j * W + W ≤ xs.length) :
    (window z C W xs j).length = C + W := by
  rw [window, List.length_take, List.length_drop, length_pad]
  omega

/-- The context and the chunk make the window. -/
theorem context_append_chunk (j : ℕ) :
    context z C W xs j ++ (xs.take (j * W + W)).drop (j * W) = window z C W xs j := by
  have hchunk : (xs.take (j * W + W)).drop (j * W) =
      (((pad z C xs).drop (j * W)).drop C).take W := by
    rw [List.drop_take, List.drop_drop, Nat.add_comm (j * W) C, ← List.drop_drop]
    simp [pad]
  rw [hchunk, context, window, List.take_add]

/-- The end of the window is the context of the next chunk. -/
@[simp] theorem drop_window (j : ℕ) : (window z C W xs j).drop W = context z C W xs (j + 1) := by
  rw [window, context, List.drop_take, List.drop_drop, Nat.add_sub_cancel, Nat.succ_mul]

/-- The window by its entries. -/
theorem window_eq_map_range {j : ℕ} (h : j * W + W ≤ xs.length) :
    window z C W xs j = (List.range (C + W)).map fun t =>
      if C ≤ j * W + t then xs.getD (j * W + t - C) z else z := by
  apply List.ext_getElem?
  intro t
  by_cases ht : t < C + W
  · rw [window, List.getElem?_take_of_lt ht, List.getElem?_drop, pad, List.getElem?_map,
      List.getElem?_range ht, Option.map_some]
    by_cases hC : C ≤ j * W + t
    · have hlt : j * W + t - C < xs.length := by omega
      rw [List.getElem?_append_right (by simpa using hC), if_pos hC, List.length_replicate,
        List.getD_eq_getElem?_getD, List.getElem?_eq_getElem hlt, Option.getD_some]
    · rw [List.getElem?_append_left (by simpa using hC), if_neg hC,
        List.getElem?_replicate_of_lt (by omega)]
  · rw [List.getElem?_eq_none (by rw [length_window h]; omega),
      List.getElem?_eq_none (by simpa using ht)]

/-- The windows see only the chunks they are made of. -/
theorem window_congr {ys : List α} {m j : ℕ} (hj : j < m)
    (h : xs.take (m * W) = ys.take (m * W)) : window z C W xs j = window z C W ys j := by
  have hle : j * W + W ≤ m * W := by
    rw [← Nat.succ_mul]
    exact Nat.mul_le_mul_right W hj
  have hprefix : xs.take (j * W + W) = ys.take (j * W + W) := by
    rw [← Nat.min_eq_left hle, ← List.take_take, h, List.take_take]
  have hwindow : ∀ l : List α, window z C W l j =
      (List.replicate C z ++ l.take (j * W + W)).drop (j * W) := by
    intro l
    rw [window, pad, List.take_drop, show j * W + (C + W) = C + (j * W + W) by omega,
      List.take_append]
    simp
  rw [hwindow, hwindow, hprefix]

end Overlap
