import RadioChatter.Lib.Numeral

/-!
Reading a numeral off the front of a text.

The scanner returns the numeral it has read, so what it has read is one by
construction; the theorems say that its text is the front of the input
(`scan_text`), and that a numeral is read back whole wherever no character
follows that could continue it (`scan_append`).
-/

namespace C99

/-! ### The scanner -/

def takeRun (p : Char → Bool) (l : List Char) : Run p :=
  ⟨l.takeWhile p, fun _ hc => List.mem_takeWhile_imp hc⟩

def scanSign : List Char → Option Bool × List Char
  | '+' :: l => (some false, l)
  | '-' :: l => (some true, l)
  | l => (none, l)

def scanMantissa (p : Char → Bool) (l : List Char) : Option (Mantissa p × List Char) :=
  match l.dropWhile p with
  | '.' :: l' =>
      if h : (takeRun p l).val ≠ [] ∨ (takeRun p l').val ≠ [] then
        some (⟨takeRun p l, some (takeRun p l'), h.imp_right fun h => ⟨_, rfl, h⟩⟩, l'.dropWhile p)
      else none
  | l' => if h : (takeRun p l).val ≠ [] then some (⟨takeRun p l, none, .inl h⟩, l') else none

/-- An exponent without digits is no exponent. -/
def scanExponent (marker : Char → Bool) : List Char → Option (Exponent marker) × List Char
  | [] => (none, [])
  | c :: l =>
      if hc : marker c = true then
        if h : (takeRun Char.isDigit (scanSign l).2).val ≠ [] then
          (some ⟨c, hc, (scanSign l).1, takeRun Char.isDigit (scanSign l).2, h⟩,
            (scanSign l).2.dropWhile Char.isDigit)
        else (none, c :: l)
      else (none, c :: l)

def scanWord (word l : List Char) : Option (AnyCase word × List Char) :=
  if h : (l.take word.length).map Char.toLower = word then
    some (⟨l.take word.length, h⟩, l.drop word.length)
  else none

def scanHexadecimal : List Char → Option (Body × List Char)
  | '0' :: x :: l =>
      if hx : isHexMarker x = true then
        (scanMantissa isHexDigit l).map fun r =>
          (.hexadecimal x hx r.1 (scanExponent isBinaryMarker r.2).1,
            (scanExponent isBinaryMarker r.2).2)
      else none
  | _ => none

def scanDecimal (l : List Char) : Option (Body × List Char) :=
  (scanMantissa Char.isDigit l).map fun r =>
    (.decimal r.1 (scanExponent isExponentMarker r.2).1, (scanExponent isExponentMarker r.2).2)

def scanInfinity (l : List Char) : Option (Body × List Char) :=
  (scanWord infinityWord l).map fun r => (.infinity r.1, r.2)

def scanInf (l : List Char) : Option (Body × List Char) :=
  (scanWord infWord l).map fun r => (.inf r.1, r.2)

/-- The parentheses of a NaN count only if they are closed. -/
def scanNan (l : List Char) : Option (Body × List Char) :=
  (scanWord nanWord l).map fun r =>
    match r.2 with
    | '(' :: l' =>
        match l'.dropWhile isNanChar with
        | ')' :: l'' => (.nan r.1 (some (takeRun isNanChar l')), l'')
        | _ => (.nan r.1 none, r.2)
    | _ => (.nan r.1 none, r.2)

/-- Of two readings of one text the longer one comes first. -/
def scanBody (l : List Char) : Option (Body × List Char) :=
  (scanHexadecimal l).or <| (scanDecimal l).or <| (scanInfinity l).or <| (scanInf l).or <|
    scanNan l

def scan (l : List Char) : Option (Numeral × List Char) :=
  let signed := scanSign (l.dropWhile isSpace)
  (scanBody signed.2).map fun r => (⟨takeRun isSpace l, signed.1, r.1⟩, r.2)

/-! ### What has been read is the front of the text -/

theorem takeRun_append_dropWhile (p : Char → Bool) (l : List Char) :
    (takeRun p l).val ++ l.dropWhile p = l := List.takeWhile_append_dropWhile

@[simp] theorem scanSign_text (l : List Char) : signText (scanSign l).1 ++ (scanSign l).2 = l := by
  unfold scanSign
  split <;> rfl

theorem scanMantissa_text {p : Char → Bool} {l r : List Char} {m : Mantissa p}
    (h : scanMantissa p l = some (m, r)) : m.text ++ r = l := by
  have hwhole := takeRun_append_dropWhile p l
  unfold scanMantissa at h
  split at h
  next l' hdrop =>
    split at h
    · obtain ⟨rfl, rfl⟩ := Prod.mk.inj (Option.some.inj h)
      have hfraction := takeRun_append_dropWhile p l'
      rw [hdrop] at hwhole
      simp only [Mantissa.text, List.append_assoc, List.cons_append, hfraction, hwhole]
    · cases h
  next l' hdrop =>
    split at h
    · obtain ⟨rfl, rfl⟩ := Prod.mk.inj (Option.some.inj h)
      simpa only [Mantissa.text, List.append_nil] using hwhole
    · cases h

theorem scanExponent_text (marker : Char → Bool) (l : List Char) :
    Exponent.textOf (scanExponent marker l).1 ++ (scanExponent marker l).2 = l := by
  cases l with
  | nil => rfl
  | cons c l =>
      have hsign := scanSign_text l
      have hdigits := takeRun_append_dropWhile Char.isDigit (scanSign l).2
      simp only [scanExponent]
      split
      · split
        · simp only [Exponent.textOf, Exponent.text, List.cons_append, List.append_assoc, hdigits,
            hsign]
        · rfl
      · rfl

theorem scanWord_text {word l r : List Char} {w : AnyCase word}
    (h : scanWord word l = some (w, r)) : w.val ++ r = l := by
  unfold scanWord at h
  split at h
  · obtain ⟨rfl, rfl⟩ := Prod.mk.inj (Option.some.inj h)
    exact List.take_append_drop _ _
  · cases h

theorem scanHexadecimal_text {l r : List Char} {b : Body} (h : scanHexadecimal l = some (b, r)) :
    b.text ++ r = l := by
  unfold scanHexadecimal at h
  split at h
  next x l =>
    split at h
    · obtain ⟨⟨m, r'⟩, hm, heq⟩ := Option.map_eq_some_iff.mp h
      obtain ⟨rfl, rfl⟩ := Prod.mk.inj heq
      have hexponent := scanExponent_text isBinaryMarker r'
      simp only [Body.text, List.cons_append, List.append_assoc, hexponent,
        scanMantissa_text hm]
    · cases h
  · cases h

theorem scanDecimal_text {l r : List Char} {b : Body} (h : scanDecimal l = some (b, r)) :
    b.text ++ r = l := by
  obtain ⟨⟨m, r'⟩, hm, heq⟩ := Option.map_eq_some_iff.mp h
  obtain ⟨rfl, rfl⟩ := Prod.mk.inj heq
  have hexponent := scanExponent_text isExponentMarker r'
  simp only [Body.text, List.append_assoc, hexponent, scanMantissa_text hm]

theorem scanNan_text {l r : List Char} {b : Body} (h : scanNan l = some (b, r)) :
    b.text ++ r = l := by
  obtain ⟨⟨w, r'⟩, hw, heq⟩ := Option.map_eq_some_iff.mp h
  have hword := scanWord_text hw
  dsimp only at heq
  split at heq
  next l' =>
    split at heq
    next l'' hdrop =>
      obtain ⟨rfl, rfl⟩ := Prod.mk.inj heq
      have hchars := takeRun_append_dropWhile isNanChar l'
      rw [hdrop] at hchars
      simp only [Body.text, List.append_assoc, List.cons_append, List.nil_append, hchars, hword]
    · obtain ⟨rfl, rfl⟩ := Prod.mk.inj heq
      exact hword
  · obtain ⟨rfl, rfl⟩ := Prod.mk.inj heq
    exact hword

theorem scanInfinity_text {l r : List Char} {b : Body} (h : scanInfinity l = some (b, r)) :
    b.text ++ r = l := by
  obtain ⟨⟨w, r'⟩, hw, heq⟩ := Option.map_eq_some_iff.mp h
  obtain ⟨rfl, rfl⟩ := Prod.mk.inj heq
  exact scanWord_text hw

theorem scanInf_text {l r : List Char} {b : Body} (h : scanInf l = some (b, r)) :
    b.text ++ r = l := by
  obtain ⟨⟨w, r'⟩, hw, heq⟩ := Option.map_eq_some_iff.mp h
  obtain ⟨rfl, rfl⟩ := Prod.mk.inj heq
  exact scanWord_text hw

theorem scanBody_text {l r : List Char} {b : Body} (h : scanBody l = some (b, r)) :
    b.text ++ r = l := by
  simp only [scanBody, Option.or_eq_some_iff] at h
  obtain h | ⟨-, h | ⟨-, h | ⟨-, h | ⟨-, h⟩⟩⟩⟩ := h
  · exact scanHexadecimal_text h
  · exact scanDecimal_text h
  · exact scanInfinity_text h
  · exact scanInf_text h
  · exact scanNan_text h

theorem scan_text {l r : List Char} {n : Numeral} (h : scan l = some (n, r)) :
    n.text ++ r = l := by
  obtain ⟨⟨b, r'⟩, hb, heq⟩ := Option.map_eq_some_iff.mp h
  obtain ⟨rfl, rfl⟩ := Prod.mk.inj heq
  have hspace := takeRun_append_dropWhile isSpace l
  have hsign := scanSign_text (l.dropWhile isSpace)
  simp only [Numeral.text, List.append_assoc, scanBody_text hb, hsign, hspace]

/-! ### A numeral is read back whole -/

theorem toLower_eq_self {c : Char} (h : c.toNat < 65) : c.toLower = c := by
  unfold Char.toLower
  split
  next hupper =>
    have hle := hupper.1
    simp only [ge_iff_le, UInt32.le_iff_toNat_le] at hle
    have hA : 'A'.val.toNat = 65 := rfl
    have hc : c.toNat = c.val.toNat := rfl
    omega
  · rfl

theorem isDigit_bounds {c : Char} (h : c.isDigit = true) : 48 ≤ c.toNat ∧ c.toNat ≤ 57 := by
  simp only [Char.isDigit, Bool.and_eq_true, decide_eq_true_eq, ge_iff_le,
    UInt32.le_iff_toNat_le] at h
  exact h

/-- What holds of two letters holds of whatever is one of them. -/
theorem of_either {x y c : Char} {P : Char → Prop} (hx : P x) (hy : P y)
    (h : (decide (c = x) || decide (c = y)) = true) : P c := by
  rw [Bool.or_eq_true, decide_eq_true_eq, decide_eq_true_eq] at h
  obtain rfl | rfl := h
  · exact hx
  · exact hy

/-- The characters that can make a numeral longer. -/
def continues (c : Char) : Bool :=
  isHexDigit c || c = '.' || isBinaryMarker c || isHexMarker c || c.toLower = 'i' || c = '('

/-- No numeral goes on into this text. -/
def Stops (r : List Char) : Prop := ∀ c ∈ r.head?, continues c = false

/-- What a character that stops a numeral is not. -/
structure Inert (c : Char) : Prop where
  digit : c.isDigit = false
  hexDigit : isHexDigit c = false
  dot : c ≠ '.'
  exponentMarker : isExponentMarker c = false
  binaryMarker : isBinaryMarker c = false
  hexMarker : isHexMarker c = false
  letter : c.toLower ≠ 'i'
  parenthesis : c ≠ '('

theorem inert_of_continues {c : Char} (h : continues c = false) : Inert c := by
  simp only [continues, Bool.or_eq_false_iff, decide_eq_false_iff_not] at h
  obtain ⟨⟨⟨⟨⟨hhex, hdot⟩, hbinary⟩, hx⟩, hletter⟩, hparenthesis⟩ := h
  have hdigit : c.isDigit = false := by
    simp only [isHexDigit, Bool.or_eq_false_iff] at hhex
    exact hhex.1.1
  have hmarker : isExponentMarker c = false := by
    apply Bool.eq_false_of_not_eq_true
    intro hmarker
    have hletter : isHexDigit c = true :=
      of_either (P := fun c => isHexDigit c = true) rfl rfl hmarker
    exact Bool.false_ne_true (hhex.symm.trans hletter)
  exact ⟨hdigit, hhex, hdot, hmarker, hbinary, hx, hletter, hparenthesis⟩

theorem takeRun_append {p : Char → Bool} (run : Run p) {r : List Char}
    (hr : ∀ c ∈ r.head?, p c = false) :
    takeRun p (run.val ++ r) = run ∧ (run.val ++ r).dropWhile p = r := by
  have htail : r.takeWhile p = [] ∧ r.dropWhile p = r := by
    cases r with
    | nil => exact ⟨rfl, rfl⟩
    | cons c r =>
        have hc : p c = false := hr c rfl
        simp [hc]
  constructor
  · apply Subtype.ext
    simp only [takeRun, List.takeWhile_append_of_pos run.property, htail.1, List.append_nil]
  · rw [List.dropWhile_append_of_pos run.property, htail.2]

theorem scanSign_append (minus : Option Bool) {l : List Char}
    (hl : ∀ c ∈ l.head?, c ≠ '+' ∧ c ≠ '-') :
    scanSign (signText minus ++ l) = (minus, l) := by
  cases minus with
  | none =>
      cases l with
      | nil => rfl
      | cons c l =>
          obtain ⟨hplus, hminus⟩ := hl c rfl
          simp [signText, scanSign, hplus, hminus]
  | some minus => cases minus <;> rfl

theorem scanMantissa_append {p : Char → Bool} (hp : p '.' = false) (m : Mantissa p)
    {r : List Char} (hr : ∀ c ∈ r.head?, p c = false ∧ c ≠ '.') :
    scanMantissa p (m.text ++ r) = some (m, r) := by
  obtain ⟨whole, fraction, hne⟩ := m
  cases fraction with
  | none =>
      obtain ⟨htake, hdrop⟩ := takeRun_append whole fun c hc => (hr c hc).1
      have hwhole : whole.val ≠ [] := by simpa using hne
      simp only [Mantissa.text, List.append_nil, scanMantissa, hdrop, htake]
      split
      next l' => exact absurd rfl (hr '.' rfl).2
      · rw [dif_pos hwhole]
  | some digits =>
      have hdot : ∀ c ∈ ('.' :: (digits.val ++ r)).head?, p c = false := by
        rintro c ⟨⟩
        exact hp
      obtain ⟨htake, hdrop⟩ := takeRun_append whole hdot
      obtain ⟨htake', hdrop'⟩ := takeRun_append digits fun c hc => (hr c hc).1
      have hdigits : whole.val ≠ [] ∨ digits.val ≠ [] := by simpa using hne
      simp only [Mantissa.text, List.append_assoc, List.cons_append, scanMantissa, hdrop, htake,
        htake', hdrop', dif_pos hdigits]

theorem scanExponent_append {marker : Char → Bool} (e : Option (Exponent marker)) {r : List Char}
    (hr : ∀ c ∈ r.head?, marker c = false ∧ c.isDigit = false) :
    scanExponent marker (Exponent.textOf e ++ r) = (e, r) := by
  cases e with
  | none =>
      cases r with
      | nil => rfl
      | cons c r => simp [Exponent.textOf, scanExponent, (hr c rfl).1]
  | some e =>
      obtain ⟨letter, hletter, minus, digits, hne⟩ := e
      have hsign : scanSign (signText minus ++ (digits.val ++ r)) = (minus, digits.val ++ r) := by
        apply scanSign_append
        obtain ⟨d, ds, hd⟩ := List.exists_cons_of_ne_nil hne
        have hdigit := isDigit_bounds (digits.property d (by simp [hd]))
        rw [hd]
        rintro c ⟨⟩
        constructor
        · rintro rfl
          exact absurd hdigit.1 (by decide)
        · rintro rfl
          exact absurd hdigit.1 (by decide)
      obtain ⟨htake, hdrop⟩ := takeRun_append digits fun c hc => (hr c hc).2
      simp only [Exponent.textOf, Exponent.text, List.cons_append, List.append_assoc, scanExponent,
        hsign, htake, hdrop, dif_pos hletter, dif_pos hne]

/-- A mantissa is read up to its exponent. -/
theorem scanMantissa_exponent_append {p marker : Char → Bool} (hp : p '.' = false)
    (hmarker : ∀ c, marker c = true → p c = false ∧ c ≠ '.') (m : Mantissa p)
    (e : Option (Exponent marker)) {r : List Char} (hr : ∀ c ∈ r.head?, p c = false ∧ c ≠ '.') :
    scanMantissa p (m.text ++ (Exponent.textOf e ++ r)) = some (m, Exponent.textOf e ++ r) := by
  apply scanMantissa_append hp
  cases e with
  | none => exact hr
  | some e =>
      rintro c ⟨⟩
      exact hmarker e.letter e.letter_marker

@[simp] theorem scanWord_append {word : List Char} (w : AnyCase word) (r : List Char) :
    scanWord word (w.val ++ r) = some (w, r) := by
  have hlength : w.val.length = word.length := by
    conv_rhs => rw [← w.property]
    exact List.length_map .. |>.symm
  have htake : (w.val ++ r).take word.length = w.val := List.take_left' hlength
  unfold scanWord
  rw [dif_pos (by rw [htake]; exact w.property)]
  simp only [htake, List.drop_left' hlength]

/-- Another first letter, another word. -/
theorem scanWord_eq_none {c : Char} {word l : List Char} (h : ∀ d ∈ l.head?, d.toLower ≠ c) :
    scanWord (c :: word) l = none := by
  unfold scanWord
  rw [dif_neg]
  intro heq
  cases l with
  | nil => simp at heq
  | cons d l =>
      rw [List.length_cons, List.take_succ_cons, List.map_cons, List.cons.injEq] at heq
      exact h d rfl heq.1

theorem AnyCase.exists_cons {c : Char} {word : List Char} (w : AnyCase (c :: word)) :
    ∃ d ds, w.val = d :: ds ∧ d.toLower = c := by
  obtain ⟨val, hval⟩ := w
  cases val with
  | nil => cases hval
  | cons d ds => exact ⟨d, ds, rfl, (List.cons.inj hval).1⟩

theorem le_toNat_of_toLower {c d : Char} (h : c.toLower = d) (hd : 65 ≤ d.toNat) :
    65 ≤ c.toNat := by
  by_contra hlt
  rw [← h, toLower_eq_self (by omega)] at hd
  exact hlt hd

/-- A letter, unlike the first characters of the numbers. -/
theorem not_digit_of_toLower {c d : Char} (h : c.toLower = d) (hd : 65 ≤ d.toNat) :
    c.isDigit = false ∧ c ≠ '.' ∧ c ≠ '0' := by
  have hlarge : 65 ≤ c.toNat := le_toNat_of_toLower h hd
  refine ⟨?_, ?_, ?_⟩
  · by_contra hdigit
    have hbound := isDigit_bounds (Bool.eq_true_of_not_eq_false hdigit)
    omega
  · rintro rfl
    exact absurd hlarge (by decide)
  · rintro rfl
    exact absurd hlarge (by decide)

theorem scanDecimal_eq_none {c : Char} {l : List Char} (hdigit : c.isDigit = false)
    (hdot : c ≠ '.') : scanDecimal (c :: l) = none := by
  have hrun : (takeRun Char.isDigit (c :: l)).val = [] := by simp [takeRun, hdigit]
  have hdrop : (c :: l).dropWhile Char.isDigit = c :: l := by simp [hdigit]
  have hmantissa : scanMantissa Char.isDigit (c :: l) = none := by
    unfold scanMantissa
    rw [hdrop]
    split
    next l' heq => exact absurd (List.cons.inj heq).1 hdot
    · rw [dif_neg (not_not.mpr hrun)]
  rw [scanDecimal, hmantissa, Option.map_none]

theorem scanHexadecimal_eq_none {c : Char} {l : List Char} (h : c ≠ '0') :
    scanHexadecimal (c :: l) = none := by
  unfold scanHexadecimal
  split
  next heq => exact absurd (List.cons.inj heq).1 h
  · rfl

theorem isHexMarker_of_isDigit {c : Char} (h : c.isDigit = true) : isHexMarker c = false := by
  apply Bool.eq_false_of_not_eq_true
  intro hmarker
  exact of_either (P := fun c => ¬ c.isDigit = true) (by decide) (by decide) hmarker h

/-- No decimal number begins like a hexadecimal one. -/
theorem scanHexadecimal_mantissa (m : Mantissa Char.isDigit) {r : List Char}
    (hr : ∀ c ∈ r.head?, isHexMarker c = false) : scanHexadecimal (m.text ++ r) = none := by
  have hsecond : ∀ x l, m.text ++ r = '0' :: x :: l → isHexMarker x = false := by
    intro x l heq
    obtain ⟨⟨whole, hwhole⟩, fraction, hne⟩ := m
    cases whole with
    | nil =>
        cases fraction with
        | none => simp at hne
        | some digits => simp [Mantissa.text] at heq
    | cons d ds =>
        cases ds with
        | nil =>
            cases fraction with
            | none =>
                simp only [Mantissa.text, List.append_nil, List.singleton_append,
                  List.cons.injEq] at heq
                exact hr x (by rw [heq.2]; rfl)
            | some digits =>
                simp only [Mantissa.text, List.cons_append, List.nil_append, List.cons.injEq] at heq
                rw [← heq.2.1]
                decide
        | cons d' ds =>
            simp only [Mantissa.text, List.cons_append, List.cons.injEq] at heq
            rw [← heq.2.1]
            exact isHexMarker_of_isDigit (hwhole d' (by simp))
  unfold scanHexadecimal
  split
  next x l heq => rw [dif_neg (by rw [hsecond x l heq]; decide)]
  · rfl

theorem scanDecimal_append (m : Mantissa Char.isDigit) (e : Option (Exponent isExponentMarker))
    {r : List Char} (hr : ∀ c ∈ r.head?, Inert c) :
    scanDecimal (m.text ++ (Exponent.textOf e ++ r)) = some (.decimal m e, r) := by
  have hexponent := scanExponent_append e fun c hc => ⟨(hr c hc).exponentMarker, (hr c hc).digit⟩
  have hmarker : ∀ c, isExponentMarker c = true → c.isDigit = false ∧ c ≠ '.' := fun c =>
    of_either (P := fun c => c.isDigit = false ∧ c ≠ '.') (by decide) (by decide)
  have hmantissa := scanMantissa_exponent_append (by decide) hmarker m e
    fun c hc => ⟨(hr c hc).digit, (hr c hc).dot⟩
  rw [scanDecimal, hmantissa, Option.map_some]
  simp only [hexponent]

theorem scanHexadecimal_append {x : Char} (hx : isHexMarker x = true) (m : Mantissa isHexDigit)
    (e : Option (Exponent isBinaryMarker)) {r : List Char} (hr : ∀ c ∈ r.head?, Inert c) :
    scanHexadecimal ('0' :: x :: (m.text ++ (Exponent.textOf e ++ r))) =
      some (.hexadecimal x hx m e, r) := by
  have hexponent := scanExponent_append e fun c hc => ⟨(hr c hc).binaryMarker, (hr c hc).digit⟩
  have hmarker : ∀ c, isBinaryMarker c = true → isHexDigit c = false ∧ c ≠ '.' := fun c =>
    of_either (P := fun c => isHexDigit c = false ∧ c ≠ '.') (by decide) (by decide)
  have hmantissa := scanMantissa_exponent_append (by decide) hmarker m e
    fun c hc => ⟨(hr c hc).hexDigit, (hr c hc).dot⟩
  rw [scanHexadecimal, dif_pos hx, hmantissa, Option.map_some]
  simp only [hexponent]

theorem scanNan_append (word : AnyCase nanWord) (chars : Option (Run isNanChar)) {r : List Char}
    (hr : ∀ c ∈ r.head?, Inert c) :
    scanNan ((Body.nan word chars).text ++ r) = some (.nan word chars, r) := by
  cases chars with
  | none =>
      rw [scanNan, Body.text, scanWord_append, Option.map_some]
      dsimp only
      split
      next l' => exact absurd rfl (hr '(' rfl).parenthesis
      · rfl
  | some chars =>
      have hclosed : ∀ c ∈ (')' :: r).head?, isNanChar c = false := by
        rintro c ⟨⟩
        decide
      obtain ⟨htake, hdrop⟩ := takeRun_append chars hclosed
      rw [scanNan, Body.text, List.append_assoc, scanWord_append, Option.map_some]
      simp only [List.cons_append, List.append_assoc, List.nil_append, hdrop, htake]

/-- The words are no numbers. -/
theorem scan_numbers_eq_none {c : Char} {word : List Char} (w : AnyCase (c :: word))
    (hc : 65 ≤ c.toNat) (r : List Char) :
    scanHexadecimal (w.val ++ r) = none ∧ scanDecimal (w.val ++ r) = none := by
  obtain ⟨d, ds, hd, hlower⟩ := w.exists_cons
  obtain ⟨hdigit, hdot, hzero⟩ := not_digit_of_toLower hlower hc
  rw [hd]
  exact ⟨scanHexadecimal_eq_none hzero, scanDecimal_eq_none hdigit hdot⟩

theorem scanWord_infinity_eq_none (w : AnyCase infWord) {r : List Char}
    (hr : ∀ c ∈ r.head?, c.toLower ≠ 'i') : scanWord infinityWord (w.val ++ r) = none := by
  have hlength : w.val.length = 3 := by
    have hmap := congrArg List.length w.property
    rwa [List.length_map] at hmap
  have htake : (w.val ++ r).take infinityWord.length = w.val ++ r.take 5 := by
    rw [List.take_append, hlength, List.take_of_length_le]
    · rfl
    · rw [hlength]
      decide
  unfold scanWord
  rw [dif_neg]
  intro heq
  rw [htake, List.map_append, w.property,
    show infinityWord = infWord ++ ['i', 'n', 'i', 't', 'y'] from rfl, List.append_right_inj] at heq
  cases r with
  | nil => cases heq
  | cons c r => exact hr c rfl (List.cons.inj heq).1

theorem scanBody_append (b : Body) {r : List Char} (hr : ∀ c ∈ r.head?, Inert c) :
    scanBody (b.text ++ r) = some (b, r) := by
  cases b with
  | decimal m e =>
      have hhex : scanHexadecimal (m.text ++ (Exponent.textOf e ++ r)) = none := by
        apply scanHexadecimal_mantissa
        cases e with
        | none =>
            intro c hc
            exact (hr c hc).hexMarker
        | some e =>
            rintro c ⟨⟩
            exact of_either (P := fun c => isHexMarker c = false) rfl rfl e.letter_marker
      rw [scanBody, Body.text, List.append_assoc, hhex, scanDecimal_append m e hr, Option.none_or,
        Option.some_or]
  | hexadecimal x hx m e =>
      rw [scanBody, Body.text, List.cons_append, List.cons_append, List.append_assoc,
        scanHexadecimal_append hx m e hr, Option.some_or]
  | infinity word =>
      obtain ⟨hhex, hdecimal⟩ := scan_numbers_eq_none word (by decide) r
      rw [scanBody, Body.text, hhex, hdecimal, scanInfinity, scanWord_append, Option.none_or,
        Option.none_or, Option.map_some, Option.some_or]
  | inf word =>
      obtain ⟨hhex, hdecimal⟩ := scan_numbers_eq_none word (by decide) r
      -- The longer word is tried first, and `r` does not complete it.
      have hlonger := scanWord_infinity_eq_none word fun c hc => (hr c hc).letter
      rw [scanBody, Body.text, hhex, hdecimal, scanInfinity, hlonger, scanInf, scanWord_append,
        Option.none_or, Option.none_or, Option.map_none, Option.none_or, Option.map_some,
        Option.some_or]
  | nan word chars =>
      have hfront : ∃ t, (Body.nan word chars).text ++ r = word.val ++ t := by
        cases chars with
        | none => exact ⟨r, rfl⟩
        | some chars => exact ⟨_, List.append_assoc ..⟩
      obtain ⟨t, ht⟩ := hfront
      obtain ⟨hhex, hdecimal⟩ := scan_numbers_eq_none word (by decide) t
      have hletter : ∀ d ∈ (word.val ++ t).head?, d.toLower ≠ 'i' := by
        obtain ⟨d, ds, hd, hlower⟩ := word.exists_cons
        rw [hd]
        rintro c ⟨⟩
        rw [hlower]
        decide
      have hinfinity : scanWord infinityWord (word.val ++ t) = none := scanWord_eq_none hletter
      have hinf : scanWord infWord (word.val ++ t) = none := scanWord_eq_none hletter
      rw [scanBody, scanNan_append word chars hr, scanInfinity, scanInf, ht, hhex, hdecimal,
        hinfinity, hinf]
      rfl

theorem not_sign_of_le_toNat {c : Char} (h : 48 ≤ c.toNat) :
    isSpace c = false ∧ c ≠ '+' ∧ c ≠ '-' := by
  refine ⟨?_, ?_, ?_⟩
  · rw [isSpace, Bool.or_eq_false_iff, decide_eq_false_iff_not, Bool.and_eq_false_iff,
      decide_eq_false_iff_not, decide_eq_false_iff_not]
    refine ⟨?_, Or.inr (by omega)⟩
    rintro rfl
    exact absurd h (by decide)
  · rintro rfl
    exact absurd h (by decide)
  · rintro rfl
    exact absurd h (by decide)

theorem Mantissa.exists_cons (m : Mantissa Char.isDigit) :
    ∃ c cs, m.text = c :: cs ∧ (c.isDigit = true ∨ c = '.') := by
  obtain ⟨⟨whole, hwhole⟩, fraction, hne⟩ := m
  cases whole with
  | nil =>
      cases fraction with
      | none => simp at hne
      | some digits => exact ⟨'.', digits.val, rfl, Or.inr rfl⟩
  | cons c cs => exact ⟨c, _, rfl, Or.inl (hwhole c (by simp))⟩

/-- A body begins with neither a space nor a sign. -/
theorem Body.exists_cons (b : Body) :
    ∃ c cs, b.text = c :: cs ∧ isSpace c = false ∧ c ≠ '+' ∧ c ≠ '-' := by
  have hword : ∀ {c : Char} {word : List Char} (w : AnyCase (c :: word)), 65 ≤ c.toNat →
      ∀ t, ∃ d ds, w.val ++ t = d :: ds ∧ isSpace d = false ∧ d ≠ '+' ∧ d ≠ '-' := by
    intro c word w hc t
    obtain ⟨d, ds, hd, hlower⟩ := w.exists_cons
    have hlarge := le_toNat_of_toLower hlower hc
    exact ⟨d, ds ++ t, by rw [hd, List.cons_append], not_sign_of_le_toNat (by omega)⟩
  cases b with
  | decimal m e =>
      obtain ⟨c, cs, hm, hc⟩ := m.exists_cons
      refine ⟨c, cs ++ Exponent.textOf e, by rw [Body.text, hm, List.cons_append], ?_⟩
      obtain hdigit | rfl := hc
      · exact not_sign_of_le_toNat (isDigit_bounds hdigit).1
      · decide
  | hexadecimal x hx m e => exact ⟨'0', _, rfl, by decide⟩
  | infinity word => simpa [Body.text] using hword word (by decide) []
  | inf word => simpa [Body.text] using hword word (by decide) []
  | nan word chars =>
      cases chars with
      | none => simpa [Body.text] using hword word (by decide) []
      | some chars => exact hword word (by decide) _

/-- **A numeral is read back whole.** -/
theorem scan_append (n : Numeral) {r : List Char} (hr : Stops r) :
    scan (n.text ++ r) = some (n, r) := by
  obtain ⟨space, minus, b⟩ := n
  obtain ⟨c, cs, hb, hspace, hplus, hminus⟩ := b.exists_cons
  have hinert : ∀ c ∈ r.head?, Inert c := fun c hc => inert_of_continues (hr c hc)
  have hsign : scanSign (signText minus ++ (b.text ++ r)) = (minus, b.text ++ r) := by
    apply scanSign_append
    rw [hb]
    rintro d ⟨⟩
    exact ⟨hplus, hminus⟩
  have hfirst : ∀ d ∈ (signText minus ++ (b.text ++ r)).head?, isSpace d = false := by
    rw [hb]
    cases minus with
    | none =>
        rintro d ⟨⟩
        exact hspace
    | some minus =>
        cases minus <;> rintro d ⟨⟩ <;> decide
  obtain ⟨htake, hdrop⟩ := takeRun_append space hfirst
  simp only [scan, Numeral.text, List.append_assoc, htake, hdrop, hsign, scanBody_append b hinert,
    Option.map_some]

end C99
