import AdaptiveDispatch.Value.Basic

/-!
# Literal expressions

A literal evaluates to its boxed value. A consumer that wants a particular primitive
asks for it along a typed path, and a literal of that kind answers without building the
box. Every other path unboxes the value, and hands it back when it is of another type.
-/

namespace AdaptiveDispatch

inductive Literal where
  | long (n : Int64)
  | int (n : Int32)
  | float (x : Double)
  | bool (b : Bool)
  | nil
  | boxed (value : Value)

namespace Literal

/-- The literal best suited to a value. -/
def ofValue : Value → Literal
  | .nil => .nil
  | .bool b => .bool b
  | .int n => .int n
  | .long n => .long n
  | .float x => .float x
  | value@(.big _) | value@(.object ..) => .boxed value

/-- The boxed value of a literal. -/
def value : Literal → Value
  | .long n => .long n
  | .int n => .int n
  | .float x => .float x
  | .bool b => .bool b
  | .nil => .nil
  | .boxed value => value

@[simp] theorem value_ofValue (v : Value) : (ofValue v).value = v := by
  cases v <;> rfl

/-- The 64-bit integer of a literal, or its value if that is no fixnum. -/
def asLong : Literal → Except Value Int64
  | .long n => .ok n
  | .int n => .ok n.toInt64
  | literal =>
      match literal.value.fixnum? with
      | some n => .ok n
      | none => .error literal.value

/-- The 32-bit integer of a literal, or its value if that is of another type. -/
def asInt : Literal → Except Value Int32
  | .int n => .ok n
  | literal =>
      match literal.value with
      | .int n => .ok n
      | other => .error other

/-- The double of a literal, or its value if that is of another type. -/
def asDouble : Literal → Except Value Double
  | .float x => .ok x
  | literal =>
      match literal.value with
      | .float x => .ok x
      | other => .error other

/-- The boolean of a literal, or its value if that is of another type. -/
def asBool : Literal → Except Value Bool
  | .bool b => .ok b
  | literal =>
      match literal.value with
      | .bool b => .ok b
      | other => .error other

end Literal

end AdaptiveDispatch
