import AdaptiveDispatch.Double.Display
import AdaptiveDispatch.Value.Basic

/-!
# How values are named and written

The class of a value stands in error messages and decides which methods it has. A
refused conversion names `nil`, `true` and `false` themselves, and everything else by
class.
-/

namespace AdaptiveDispatch.Value

def Shape.label : Shape → String
  | .bool => "bool"
  | .int => "int"
  | .long => "long"
  | .bignum => "bignum"
  | .float => "float"
  | .nil => "nil"
  | .object => "object"

/-- All three representations of an integer belong to one class. -/
def className : Value → String
  | .nil => "NilClass"
  | .bool true => "TrueClass"
  | .bool false => "FalseClass"
  | .int _ | .long _ | .big _ => "Integer"
  | .float _ => "Float"
  | .object _ name _ => name

/-- How a refused conversion names the value. -/
def inspect : Value → String
  | .nil => "nil"
  | .bool true => "true"
  | .bool false => "false"
  | v => v.className

/-- The text of a value: a number in decimal, an object as `#<Class>`. -/
def display : Value → String
  | .nil => "nil"
  | .bool true => "true"
  | .bool false => "false"
  | .int n => toString n.toInt
  | .long n => toString n.toInt
  | .big z => toString z
  | .float x => x.display
  | .object _ name _ => "#<" ++ name ++ ">"

end AdaptiveDispatch.Value
