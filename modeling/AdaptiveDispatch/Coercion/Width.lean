import AdaptiveDispatch.Value.Basic

/-!
# Target widths

A coercion produces an integer of 32 or 64 bits. Whatever does not fit is truncated: the
low bits are kept and read as a two's-complement number. Results of either width are
held in 64 bits.
-/

namespace AdaptiveDispatch

inductive Width where
  | bits32
  | bits64
  deriving DecidableEq

namespace Width

def bits : Width → Nat
  | .bits32 => 32
  | .bits64 => 64

/-- The representation that already has the width. -/
def native : Width → Value.Shape
  | .bits32 => .int
  | .bits64 => .long

/-- The fixed-width representation that does not have the width. -/
def foreign : Width → Value.Shape
  | .bits32 => .long
  | .bits64 => .int

/-- Keep the low bits, and extend their sign. -/
def truncate : Width → Int64 → Int64
  | .bits32, n => n.toInt32.toInt64
  | .bits64, n => n

/-- Keep the low bits of an unbounded integer, and extend their sign. All of them come from
the lowest 64 bits of its magnitude, which are negated for a negative integer. -/
def truncateBig (width : Width) (z : Int) : Int64 :=
  let magnitude := UInt64.ofNat z.natAbs
  let low := if z < 0 then -magnitude else magnitude
  width.truncate low.toInt64

end Width

end AdaptiveDispatch
