import AdaptiveDispatch.Double.Basic

/-!
# Dynamic values

A value is `nil`, a boolean, an integer in one of three representations, a double or an
object. The two fixed widths and the unbounded representation are kept apart, and an
unbounded integer may be small: representations are never normalized behind the
program's back.

Objects carry an identity. Two objects are the same for a program when their identities
agree, whatever their class and fields, so `Value.equals`, the comparison that programs
make, is not Lean's equality. The `shape` of a value is its representation, and is all
that dispatch looks at.
-/

namespace AdaptiveDispatch

/-- What distinguishes one allocated thing from another. -/
abbrev Identity := Nat

inductive Value where
  | nil
  | bool (b : Bool)
  | int (n : Int32)
  | long (n : Int64)
  | big (z : Int)
  | float (x : Double)
  | object (identity : Identity) (className : String) (fields : List Value)

namespace Value

instance : Inhabited Value := ⟨.nil⟩

/-- The representation of a value. -/
inductive Shape where
  | bool
  | int
  | long
  | bignum
  | float
  | nil
  | object
  deriving DecidableEq

/-- The integers of a fixed width. -/
def Shape.isFixnum : Shape → Bool
  | .int | .long => true
  | _ => false

def shape : Value → Shape
  | .nil => .nil
  | .bool _ => .bool
  | .int _ => .int
  | .long _ => .long
  | .big _ => .bignum
  | .float _ => .float
  | .object .. => .object

def isNil : Value → Bool
  | .nil => true
  | _ => false

/-- The value as a 64-bit integer, when it is one of a fixed width. -/
def fixnum? : Value → Option Int64
  | .int n => some n.toInt64
  | .long n => some n
  | _ => none

def int? : Value → Option Int32
  | .int n => some n
  | _ => none

def float? : Value → Option Double
  | .float x => some x
  | _ => none

theorem isSome_fixnum? (v : Value) : v.fixnum?.isSome = v.shape.isFixnum := by
  cases v <;> rfl

/-- The value of an integer literal: 64 bits wide if it fits, and otherwise
unbounded. -/
def ofInteger (z : Int) : Value :=
  if Int64.minValue.toInt ≤ z ∧ z ≤ Int64.maxValue.toInt then .long (Int64.ofInt z) else .big z

/-- The field of an object at a position. -/
def field? : Value → Nat → Option Value
  | .object _ _ fields, index => fields[index]?
  | _, _ => none

/-- The comparison that programs make: values of different representations differ,
doubles compare by the IEEE 754 rules and objects by identity. -/
def equals : Value → Value → Bool
  | .nil, .nil => true
  | .bool a, .bool b => a == b
  | .int m, .int n => m == n
  | .long m, .long n => m == n
  | .big y, .big z => y == z
  | .float x, .float y => x.equals y
  | .object i .., .object j .. => i == j
  | _, _ => false

/-- For two objects, whether they are one and the same. -/
def sameObject? : Value → Value → Option Bool
  | .object i .., .object j .. => some (i == j)
  | _, _ => none

end Value

end AdaptiveDispatch
