import RadioChatter.Lib.Checked

/-!
C strings in buffers.

A buffer is a list of characters, `none` where nothing has been written yet;
the string in it ends at the first NUL. A character is a `char` of C, one byte of
the text in whatever encoding. Running past the end of the buffer, or
over a character that was never written, is a fault.
-/

namespace CString

open Checked

abbrev Buffer := List (Option Char)

/-- The terminator. -/
def nul : Char := Char.ofNat 0

/-- What `malloc` returns. -/
def malloc (n : ℕ) : Buffer := List.replicate n none

/-- `strncpy`: at most `n` characters of `src`, filled up with terminators. -/
def strncpy (dst : Buffer) (src : List Char) (n : ℕ) : Except Fault Buffer :=
  blit dst 0 (((src ++ List.replicate (n - src.length) nul).take n).map some)

/-- `strcpy` and the writing of `sprintf`: the characters and a terminator. -/
def strcpy (dst : Buffer) (src : List Char) : Except Fault Buffer :=
  blit dst 0 ((src ++ [nul]).map some)

/-- Put `f` over the characters of the string, in place. -/
def mapString (f : Char → Char) : Buffer → Except Fault Buffer
  | [] => .error .outOfBounds
  | none :: _ => .error .uninitialised
  | some c :: b => if c = nul then .ok (some c :: b) else (mapString f b).map (some (f c) :: ·)

/-- Whether `strcmp` of the string and a literal is zero. -/
def equals : Buffer → List Char → Except Fault Bool
  | [], _ => .error .outOfBounds
  | none :: _, _ => .error .uninitialised
  | some c :: _, [] => .ok (c = nul)
  | some c :: b, d :: s => if c = d then equals b s else .ok false

/-- The string in a buffer. -/
def contents : Buffer → Except Fault (List Char)
  | [] => .error .outOfBounds
  | none :: _ => .error .uninitialised
  | some c :: b => if c = nul then .ok [] else (contents b).map (c :: ·)

/-- A buffer with the string `s`, and what is behind it. -/
def holding (s : List Char) (rest : Buffer) : Buffer := s.map some ++ some nul :: rest

@[simp] theorem length_malloc (n : ℕ) : (malloc n).length = n := List.length_replicate

variable {s src : List Char} {rest dst : Buffer} {n : ℕ}

theorem ne_nul {c : Char} (h : nul ∉ c :: s) : c ≠ nul ∧ nul ∉ s := by
  rw [List.mem_cons, not_or] at h
  exact ⟨Ne.symm h.1, h.2⟩

theorem mapString_holding (f : Char → Char) (h : nul ∉ s) :
    mapString f (holding s rest) = .ok (holding (s.map f) rest) := by
  induction s with
  | nil => exact if_pos rfl
  | cons c s ih =>
      obtain ⟨hc, hs⟩ := ne_nul h
      have htail : mapString f (s.map some ++ some nul :: rest) = .ok (holding (s.map f) rest) :=
        ih hs
      rw [holding, List.map_cons, List.cons_append, mapString, if_neg hc, htail]
      rfl

/-- Without a terminator the loop runs out of the buffer. -/
theorem mapString_unterminated (f : Char → Char) (h : nul ∉ s) :
    mapString f (s.map some) = .error .outOfBounds := by
  induction s with
  | nil => rfl
  | cons c s ih =>
      obtain ⟨hc, hs⟩ := ne_nul h
      rw [List.map_cons, mapString, if_neg hc, ih hs]
      rfl

theorem equals_holding (h : nul ∉ s) {t : List Char} (ht : nul ∉ t) :
    equals (holding s rest) t = .ok (s = t) := by
  induction s generalizing t with
  | nil =>
      cases t with
      | nil => rfl
      | cons d t =>
          have hd : nul ≠ d := (ne_nul ht).1.symm
          simp [holding, equals, hd]
  | cons c s ih =>
      obtain ⟨hc, hs⟩ := ne_nul h
      cases t with
      | nil => simp [holding, equals, hc]
      | cons d t =>
          have htail : equals (s.map some ++ some nul :: rest) t = .ok (s = t) :=
            ih hs (ne_nul ht).2
          rw [holding, List.map_cons, List.cons_append, equals, htail]
          by_cases hcd : c = d
          · simp [hcd]
          · simp [hcd]

theorem contents_holding (h : nul ∉ s) : contents (holding s rest) = .ok s := by
  induction s with
  | nil => exact if_pos rfl
  | cons c s ih =>
      obtain ⟨hc, hs⟩ := ne_nul h
      have htail : contents (s.map some ++ some nul :: rest) = .ok s := ih hs
      rw [holding, List.map_cons, List.cons_append, contents, if_neg hc, htail]
      rfl

/-- A short string is copied with its terminator. -/
theorem strncpy_of_lt (hn : dst.length = n) (h : src.length < n) :
    strncpy dst src n = .ok (holding src (List.replicate (n - src.length - 1) (some nul))) := by
  have hlength : (src ++ List.replicate (n - src.length) nul).length = n := by
    rw [List.length_append, List.length_replicate]
    omega
  have hpad : List.replicate (n - src.length) nul =
      nul :: List.replicate (n - src.length - 1) nul := by
    rw [← List.replicate_succ, Nat.sub_add_cancel (by omega)]
  have hall : ((src ++ List.replicate (n - src.length) nul).map some).length = dst.length := by
    rw [List.length_map, hlength, hn]
  rw [strncpy, List.take_of_length_le (Nat.le_of_eq hlength), blit_all hall, hpad,
    List.map_append, List.map_cons, List.map_replicate, holding]

/-- A long string is cut off, and there is no terminator. -/
theorem strncpy_of_le (hn : dst.length = n) (h : n ≤ src.length) :
    strncpy dst src n = .ok ((src.take n).map some) := by
  rw [strncpy, Nat.sub_eq_zero_of_le h, List.replicate_zero, List.append_nil, blit_all]
  rw [List.length_map, List.length_take, hn, Nat.min_eq_left h]

theorem strcpy_of_lt (h : src.length < dst.length) :
    strcpy dst src = .ok (holding src (dst.drop (src.length + 1))) := by
  rw [strcpy, blit_eq_ok]
  · simp [holding]
  · rw [List.length_map, List.length_append, List.length_singleton]
    omega

theorem strcpy_of_le (h : dst.length ≤ src.length) : strcpy dst src = .error .outOfBounds := by
  rw [strcpy, blit, if_neg]
  rw [List.length_map, List.length_append, List.length_singleton]
  omega

end CString
