/-!
# What can go wrong

A fault says why an operation failed. It is data, and its wording lives in one `message`
function per family. Coercions, sequences and the setup of rule tables and sites have a
family each; a program raises faults of its own with a text.

Leaving an iteration early is not a fault.
-/

namespace AdaptiveDispatch

namespace Fault

/-- Why a value did not become an integer. -/
inductive Coercion where
  | noImplicitConversion (source target : String)
  | cantConvert (source target : String)
  | missingMethod (source method : String)
  deriving DecidableEq

/-- Why a sequence was not built, read, copied or shared. -/
inductive Storage where
  | outOfRange (start length size : Nat)
  | capacityExceeded (size capacity : Nat)
  | arityMismatch (given expected : Nat)
  | outsideStore (start length capacity : Nat)
  deriving DecidableEq

/-- Why rules, settings or a new site were refused. -/
inductive Setup where
  | overlappingGuards (shape first second : String)
  | emptyTable
  | duplicateRule (name : String)
  | invalidLimit (name : String) (value maximum : Nat)
  | tooManySites (count : Nat)
  deriving DecidableEq

def Coercion.message : Coercion → String
  | .noImplicitConversion source target =>
      s!"no implicit conversion of {source} into {target}"
  | .cantConvert source target => s!"can't convert {source} to {target}"
  | .missingMethod source method => s!"{source} does not respond to {method}"

def Storage.message : Storage → String
  | .outOfRange start length size =>
      s!"range [{start}, {start}+{length}) out of bounds for size {size}"
  | .capacityExceeded size capacity =>
      s!"logical size {size} exceeds storage capacity {capacity}"
  | .arityMismatch given expected =>
      s!"wrong number of arguments (given {given}, expected {expected})"
  | .outsideStore start length capacity =>
      s!"slots [{start}, {start}+{length}) lie outside a store of {capacity}"

def Setup.message : Setup → String
  | .overlappingGuards shape first second =>
      s!"rules `{first}` and `{second}` both accept shape {shape}"
  | .emptyTable => "specialization table has no rules"
  | .duplicateRule name => s!"rule `{name}` is declared twice"
  | .invalidLimit name value maximum =>
      s!"{name} = {value} is out of range (maximum {maximum})"
  | .tooManySites count => s!"call-site arena is full ({count} sites)"

end Fault

inductive Fault where
  | coercion (cause : Fault.Coercion)
  | storage (cause : Fault.Storage)
  | setup (cause : Fault.Setup)
  | raised (text : String)
  deriving DecidableEq

/-- A fault is worded by its cause, and one raised by a program by its own text. -/
def Fault.message : Fault → String
  | .coercion cause => cause.message
  | .storage cause => cause.message
  | .setup cause => cause.message
  | .raised text => text

end AdaptiveDispatch
