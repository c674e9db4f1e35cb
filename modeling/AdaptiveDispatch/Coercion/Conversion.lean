import AdaptiveDispatch.Coercion.Width
import AdaptiveDispatch.Dispatch.Table

/-!
# Conversions to an integer

The rules for an implicit integer are, in order of precedence: booleans and `nil` are
refused, an integer of the target width is taken as it is, one of the other width is
widened or truncated, an unbounded one is truncated, and any other value is asked to
convert itself.

Each rule has a conversion of its own, chosen by shape, and `chain` decides all cases at
once. A conversion either settles the result or finds that the receiver has to be asked;
it never makes the call.
-/

namespace AdaptiveDispatch

/-- What a conversion finds: a result, or that only the receiver can give one. -/
inductive Judgement where
  | settled (result : Except Fault.Coercion Int64)
  | askReceiver

inductive Conversion where
  | refuse
  | keep
  | resize
  | truncate
  | ask
  | chain
  deriving DecidableEq

namespace Conversion

/-- The name under which faults mention the wanted type. -/
def target : String :=
  "Integer"

def refusal (v : Value) : Judgement :=
  .settled (.error (.noImplicitConversion v.inspect target))

/-- All rules as one case distinction. -/
def judgeChain (width : Width) : Value → Judgement
  | .nil => refusal .nil
  | .bool b => refusal (.bool b)
  | .int n => .settled (.ok (width.truncate n.toInt64))
  | .long n => .settled (.ok (width.truncate n))
  | .big z => .settled (.ok (width.truncateBig z))
  | .float _ => .askReceiver
  | .object .. => .askReceiver

/-- The finding of a conversion. One that is made for other values leaves the case to
the chain. -/
def judge (width : Width) (v : Value) : Conversion → Judgement
  | .refuse => refusal v
  | .keep =>
      match v.fixnum? with
      | some n => .settled (.ok n)
      | none => judgeChain width v
  | .resize =>
      match v.fixnum? with
      | some n => .settled (.ok (width.truncate n))
      | none => judgeChain width v
  | .truncate =>
      match v with
      | .big z => .settled (.ok (width.truncateBig z))
      | _ => judgeChain width v
  | .ask => .askReceiver
  | .chain => judgeChain width v

/-- One rule for each row of the order of precedence. -/
def rules (width : Width) : List (Rule Value.Shape Conversion) :=
  [⟨"boolean", fun shape => shape == .bool, .refuse⟩,
    ⟨"fixnum_at_width", fun shape => shape == width.native, .keep⟩,
    ⟨"fixnum_other_width", fun shape => shape == width.foreign, .resize⟩,
    ⟨"bignum", fun shape => shape == .bignum, .truncate⟩,
    ⟨"nil", fun shape => shape == .nil, .refuse⟩,
    ⟨"conversion_protocol", fun shape => shape == .float || shape == .object, .ask⟩]

/-- The rule table for coercions to a width. -/
def table (width : Width) : Except Fault.Setup (RuleTable Value.Shape Conversion) :=
  RuleTable.build (rules width) .chain

end Conversion

end AdaptiveDispatch
