import Mathlib.Data.Rat.Floor
import Mathlib.Data.List.TakeWhile

/-!
The numerals of `strtod` and its relatives in C99, as texts with a value.

A numeral is white space, a sign, and a decimal or hexadecimal number, an
infinity or a NaN. Every part is a structure that only holds characters which
C allows in its place, so the text of a numeral needs no check.
-/

namespace C99

/-- A value with the infinities and NaN; zero has no sign. -/
inductive Value
  | fin (q : ℚ)
  | inf (negative : Bool)
  | nan
  deriving DecidableEq, Repr

namespace Value

def neg : Value → Value
  | fin q => fin (-q)
  | inf negative => inf (!negative)
  | nan => nan

/-- The comparison `x < 0`. -/
def isNegative : Value → Bool
  | fin q => q < 0
  | inf negative => negative
  | nan => false

/-- The comparison `x == 0`. -/
def isZero : Value → Bool
  | fin q => q = 0
  | inf _ => false
  | nan => false

/-- A function on the finite values; the others stay as they are. -/
def bind (f : ℚ → Value) : Value → Value
  | fin q => f q
  | inf negative => inf negative
  | nan => nan

theorem bind_fin {f : ℚ → Value} (hf : ∀ q, f q = fin q) (v : Value) : v.bind f = v := by
  cases v with
  | fin q => exact hf q
  | inf negative => rfl
  | nan => rfl

end Value

/-! ### Classes of characters -/

/-- `isspace` in the C locale. -/
def isSpace (c : Char) : Bool := c = ' ' || (9 ≤ c.toNat && c.toNat ≤ 13)

def isHexDigit (c : Char) : Bool :=
  c.isDigit || ('a' ≤ c && c ≤ 'f') || ('A' ≤ c && c ≤ 'F')

/-- The letter of a decimal exponent. -/
def isExponentMarker (c : Char) : Bool := c = 'e' || c = 'E'

/-- The letter of a binary exponent. -/
def isBinaryMarker (c : Char) : Bool := c = 'p' || c = 'P'

def isHexMarker (c : Char) : Bool := c = 'x' || c = 'X'

/-- The characters between the parentheses of a NaN. -/
def isNanChar (c : Char) : Bool := c.isAlphanum || c = '_'

/-- The value of a decimal or hexadecimal digit. -/
def digitValue (c : Char) : ℕ := if c.isDigit then c.toNat - 48 else c.toLower.toNat - 87

/-! ### The parts of a numeral -/

/-- Characters of one class. -/
abbrev Run (p : Char → Bool) := { cs : List Char // ∀ c ∈ cs, p c = true }

def digitsValue (base : ℕ) (cs : List Char) : ℕ :=
  cs.foldl (fun n c => n * base + digitValue c) 0

/-- Digits which may contain a radix character. -/
structure Mantissa (p : Char → Bool) where
  whole : Run p
  fraction : Option (Run p)
  nonempty : whole.val ≠ [] ∨ ∃ digits ∈ fraction, digits.val ≠ []

namespace Mantissa

variable {p : Char → Bool}

def fractionDigits (m : Mantissa p) : List Char :=
  match m.fraction with
  | none => []
  | some digits => digits.val

def text (m : Mantissa p) : List Char :=
  m.whole.val ++
    match m.fraction with
    | none => []
    | some digits => '.' :: digits.val

def value (base : ℕ) (m : Mantissa p) : ℚ :=
  digitsValue base (m.whole.val ++ m.fractionDigits) / base ^ m.fractionDigits.length

end Mantissa

def signText : Option Bool → List Char
  | none => []
  | some false => ['+']
  | some true => ['-']

structure Exponent (marker : Char → Bool) where
  letter : Char
  letter_marker : marker letter = true
  minus : Option Bool
  digits : Run Char.isDigit
  nonempty : digits.val ≠ []

namespace Exponent

variable {marker : Char → Bool}

def text (e : Exponent marker) : List Char := e.letter :: (signText e.minus ++ e.digits.val)

def value (e : Exponent marker) : ℤ :=
  if e.minus = some true then -digitsValue 10 e.digits.val else digitsValue 10 e.digits.val

/-- The text of an exponent that may be missing. -/
def textOf : Option (Exponent marker) → List Char
  | none => []
  | some e => e.text

def valueOf : Option (Exponent marker) → ℤ
  | none => 0
  | some e => e.value

end Exponent

/-- A word in any case. -/
abbrev AnyCase (word : List Char) := { cs : List Char // cs.map Char.toLower = word }

def infWord : List Char := ['i', 'n', 'f']

def infinityWord : List Char := ['i', 'n', 'f', 'i', 'n', 'i', 't', 'y']

def nanWord : List Char := ['n', 'a', 'n']

/-- A numeral after its sign. -/
inductive Body
  | decimal (m : Mantissa Char.isDigit) (e : Option (Exponent isExponentMarker))
  | hexadecimal (x : Char) (hx : isHexMarker x = true) (m : Mantissa isHexDigit)
      (e : Option (Exponent isBinaryMarker))
  | inf (word : AnyCase infWord)
  | infinity (word : AnyCase infinityWord)
  | nan (word : AnyCase nanWord) (chars : Option (Run isNanChar))

namespace Body

def text : Body → List Char
  | decimal m e => m.text ++ Exponent.textOf e
  | hexadecimal x _ m e => '0' :: x :: (m.text ++ Exponent.textOf e)
  | inf word => word.val
  | infinity word => word.val
  | nan word none => word.val
  | nan word (some chars) => word.val ++ '(' :: (chars.val ++ [')'])

def value : Body → Value
  | decimal m e => .fin (m.value 10 * 10 ^ Exponent.valueOf e)
  | hexadecimal _ _ m e => .fin (m.value 16 * 2 ^ Exponent.valueOf e)
  | inf _ => .inf false
  | infinity _ => .inf false
  | nan _ _ => .nan

end Body

structure Numeral where
  space : Run isSpace
  minus : Option Bool
  body : Body

namespace Numeral

def text (n : Numeral) : List Char := n.space.val ++ (signText n.minus ++ n.body.text)

def value (n : Numeral) : Value := if n.minus = some true then n.body.value.neg else n.body.value

end Numeral

/-- The value of a mantissa is not negative. -/
theorem Mantissa.value_nonneg {p : Char → Bool} (base : ℕ) (m : Mantissa p) : 0 ≤ m.value base := by
  unfold Mantissa.value
  positivity

end C99
