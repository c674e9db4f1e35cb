import AdaptiveDispatch.Value.Basic

/-!
# Written values

A program writes a value down as a constant. A constant for an object stands for a new
object every time it is evaluated, so evaluation takes the next unused identity and
returns the one after those it has given out.
-/

namespace AdaptiveDispatch

inductive Constant where
  | known (value : Value)
  | fresh (className : String) (fields : List Constant)

namespace Constant

mutual

/-- The value of a constant; the fields of a new object are evaluated before it. -/
def eval : Constant → Identity → Value × Identity
  | .known value, next => (value, next)
  | .fresh className fields, next =>
      let (values, next) := evalAll fields next
      (.object next className values, next + 1)

/-- The values of several constants, in order. -/
def evalAll : List Constant → Identity → List Value × Identity
  | [], next => ([], next)
  | constant :: rest, next =>
      let (value, next) := constant.eval next
      let (values, next) := evalAll rest next
      (value :: values, next)

end

@[simp] theorem eval_known (value : Value) (next : Identity) :
    (known value).eval next = (value, next) := by
  simp [eval]

end Constant

end AdaptiveDispatch
