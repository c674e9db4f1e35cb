/-!
# Double-precision numbers

A `Double` is kept as its 64 bits, so that two of them are the same Lean value exactly
when they are the same bit pattern: a NaN is equal to itself and the two zeros differ.
The comparison that programs make is `Double.equals`, which follows the IEEE 754 rules
instead.

Apart from the sign, the bits read as one natural number, the `magnitude`. It grows with
the absolute value, so finite numbers, infinity and NaN are told apart by where the
magnitude lies.
-/

namespace AdaptiveDispatch

structure Double where
  bits : UInt64
  deriving DecidableEq

namespace Double

/-- The weight of the sign bit. -/
def signWeight : Nat :=
  0x8000000000000000

/-- The bits below the sign, as one number. -/
def magnitude (x : Double) : Nat :=
  x.bits.toNat % signWeight

def isNegative (x : Double) : Bool :=
  decide (signWeight ≤ x.bits.toNat)

/-- The magnitude of both infinities; a finite number lies below it and a NaN above. -/
def infiniteMagnitude : Nat :=
  0x7ff0000000000000

def isNaN (x : Double) : Bool :=
  decide (infiniteMagnitude < x.magnitude)

def isInfinite (x : Double) : Bool :=
  decide (x.magnitude = infiniteMagnitude)

def isZero (x : Double) : Bool :=
  decide (x.magnitude = 0)

/-- The quiet NaN without a sign or a payload. -/
def nan : Double :=
  ⟨0x7ff8000000000000⟩

/-- Comparison by the IEEE 754 rules: a NaN equals nothing, and the zeros are equal. -/
def equals (x y : Double) : Bool :=
  !x.isNaN && !y.isNaN && (decide (x = y) || x.isZero && y.isZero)

/-- A number equals itself unless it is a NaN. -/
@[simp] theorem equals_self (x : Double) : x.equals x = !x.isNaN := by
  cases h : x.isNaN <;> simp [equals, h]

theorem equals_comm (x y : Double) : x.equals y = y.equals x := by
  simp only [equals, eq_comm (a := x)]
  cases x.isNaN <;> cases y.isNaN <;> cases x.isZero <;> cases y.isZero <;> simp

/-- The double that holds a machine floating-point number. -/
def ofFloat (x : Float) : Double :=
  ⟨x.toBits⟩

end Double

end AdaptiveDispatch
