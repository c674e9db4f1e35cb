import AdaptiveDispatch.Double.Shortest

/-!
# The text of a double

The digits are the shortest ones that identify the number. They are laid out with a
point as long as the leading digit stands between the fourth place after the point and
the sixteenth before it, and in scientific form beyond. A number laid out with a point
has at least one digit on either side of it.
-/

namespace AdaptiveDispatch

namespace Decimal

/-- The places of a leading digit, as powers of ten, that are written with a point. -/
structure Layout where
  leastPlace : Int
  greatestPlace : Int

/-- The power of ten at which the leading digit stands. -/
def leadingPlace (d : Decimal) : Int :=
  (Nat.toDigits 10 d.coefficient).length + d.exponent - 1

def zeros (count : Nat) : List Char :=
  List.replicate count '0'

/-- Digits around a point: `0.0012`, `12.5`, `1200.0`. -/
def positional (d : Decimal) : List Char :=
  let digits := Nat.toDigits 10 d.coefficient
  let whole := d.leadingPlace + 1
  if whole ≤ 0 then
    '0' :: '.' :: zeros (-whole).toNat ++ digits
  else if 0 ≤ d.exponent then
    digits ++ zeros d.exponent.toNat ++ ['.', '0']
  else
    digits.take whole.toNat ++ '.' :: digits.drop whole.toNat

/-- One digit before the point and the exponent without padding: `1e16`, `1.5e-5`. -/
def scientific (d : Decimal) : List Char :=
  let mantissa := match Nat.toDigits 10 d.coefficient with
    | [] => []
    | [digit] => [digit]
    | digit :: rest => digit :: '.' :: rest
  mantissa ++ 'e' :: (toString d.leadingPlace).toList

def render (l : Layout) (d : Decimal) : List Char :=
  if l.leastPlace ≤ d.leadingPlace ∧ d.leadingPlace ≤ l.greatestPlace then d.positional
  else d.scientific

end Decimal

namespace Double

/-- Numbers from `10⁻⁴` up to `10¹⁶` are written with a point. -/
def layout : Decimal.Layout where
  leastPlace := -4
  greatestPlace := 15

/-- The text of a double: `1.5`, `-0.0`, `1e16`, `inf` or `NaN`. -/
def display (x : Double) : String :=
  let sign := if x.isNegative then ['-'] else []
  if x.isNaN then "NaN"
  else if x.isInfinite then String.ofList (sign ++ ['i', 'n', 'f'])
  else if x.isZero then String.ofList (sign ++ ['0', '.', '0'])
  else String.ofList (sign ++ (shortest x.magnitude).render layout)

end Double

end AdaptiveDispatch
