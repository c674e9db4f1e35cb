import AdaptiveDispatch.Double.Basic

/-!
# The fewest digits that identify a double

Every finite magnitude is a whole number of steps of `2⁻¹⁰⁷⁴`. The reals that round to
it reach halfway to its two neighbours, the ends included when its last bit is even.
Among the decimals in that span the shortest are the multiples of the largest power of
ten, and of those the one nearest to the number is taken, an exact tie going up.

All comparisons are between natural numbers, after clearing the powers of ten and two.
-/

namespace AdaptiveDispatch

/-- The number `coefficient * 10 ^ exponent`. -/
structure Decimal where
  coefficient : Nat
  exponent : Int
  deriving DecidableEq

namespace Double

/-- The weight of the leading bit that a magnitude leaves out, which is also the number
of magnitudes with one exponent. -/
def leadingWeight : Nat :=
  0x10000000000000

/-- The value of a magnitude in steps of `2⁻¹⁰⁷⁴`. -/
def steps (magnitude : Nat) : Nat :=
  if magnitude < leadingWeight then magnitude
  else (leadingWeight + magnitude % leadingWeight) <<< (magnitude / leadingWeight - 1)

/-- The reals that round to a number, in steps of `2⁻¹⁰⁷⁵`. -/
structure Span where
  low : Nat
  value : Nat
  high : Nat
  closed : Bool
  deriving DecidableEq

/-- The span of a positive finite magnitude. -/
def Span.ofMagnitude (magnitude : Nat) : Span where
  low := steps (magnitude - 1) + steps magnitude
  value := 2 * steps magnitude
  high := steps magnitude + steps (magnitude + 1)
  closed := magnitude % 2 == 0

namespace Span

/-- Multiplying by this turns steps into the unit in which a grid is measured. -/
def refinement (place : Int) : Nat :=
  Nat.pow 10 (-place).toNat

/-- The distance between two multiples of `10 ^ place`, in refined steps. -/
def mesh (place : Int) : Nat :=
  Nat.pow 10 place.toNat <<< 1075

/-- Whether `multiple * 10 ^ place` rounds to the number. -/
def contains (s : Span) (place : Int) (multiple : Nat) : Bool :=
  let point := multiple * mesh place
  let low := s.low * refinement place
  let high := s.high * refinement place
  decide (low < point ∧ point < high) || s.closed && decide (low = point ∨ point = high)

/-- The multiple of `10 ^ place` inside the span that is nearest to the number. -/
def nearest? (s : Span) (place : Int) : Option Nat :=
  let value := s.value * refinement place
  let below := value / mesh place
  match s.contains place below, s.contains place (below + 1) with
  | true, true =>
      some (if 2 * value < (2 * below + 1) * mesh place then below else below + 1)
  | true, false => some below
  | false, true => some (below + 1)
  | false, false => none

/-- A place whose power of ten lies above the whole span. -/
def coarsePlace (s : Span) : Int :=
  let exponent : Int := (s.high.log2 : Int) - 1074
  max (exponent * 31 / 100) (exponent * 3 / 10) + 1

/-- The first hit among `count` grids, each ten times finer than the one before. -/
def search (s : Span) : Nat → Int → Option Decimal
  | 0, _ => none
  | count + 1, place =>
      match s.nearest? place with
      | some multiple => some ⟨multiple, place⟩
      | none => s.search count (place - 1)

end Span

/-- The shortest decimal that reads back as a positive finite magnitude. Seventeen
digits always suffice; the exact value stands in for a search that finds none. -/
def shortest (magnitude : Nat) : Decimal :=
  let span := Span.ofMagnitude magnitude
  match span.search 40 span.coarsePlace with
  | some decimal => decimal
  | none => ⟨steps magnitude * Nat.pow 5 1074, -1074⟩

end Double

end AdaptiveDispatch
