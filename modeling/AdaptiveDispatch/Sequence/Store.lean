import AdaptiveDispatch.Dispatch.Shape
import AdaptiveDispatch.Fault
import AdaptiveDispatch.Value.Identical

/-!
# Stores

The elements of a sequence live in a store. Numbers of one kind are stored unboxed and
other values boxed. A shared store is a window into a backing list that several
sequences may look at. A backing list has an identity, since two lists with equal
elements need not be the same list.

The number of slots of a store is its capacity. `contents` is what its slots hold.
-/

namespace AdaptiveDispatch

/-- Boxed elements that several windows may share. -/
structure Backing where
  identity : Identity
  elements : List Value
  deriving DecidableEq

/-- The part of a backing list that starts at an offset and has a length. -/
structure Window where
  backing : Backing
  offset : Nat
  length : Nat
  deriving DecidableEq

namespace Window

/-- A window, if it lies within the backing list. -/
def ofRange (backing : Backing) (offset length : Nat) : Except Fault.Storage Window :=
  if offset + length ≤ backing.elements.length then .ok ⟨backing, offset, length⟩
  else .error (.outOfRange offset length backing.elements.length)

/-- The elements that a window shows. -/
def contents (window : Window) : List Value :=
  (window.backing.elements.drop window.offset).take window.length

/-- Whether two windows look at one backing list. -/
def sharesBacking (v w : Window) : Bool :=
  v.backing.identity == w.backing.identity

end Window

inductive Store where
  | empty
  | ints (elements : List Int32)
  | longs (elements : List Int64)
  | doubles (elements : List Double)
  | boxed (elements : List Value)
  | shared (window : Window)
  deriving DecidableEq

namespace Store

/-- The representation of a store. -/
inductive Kind where
  | empty
  | ints
  | longs
  | doubles
  | boxed
  | shared
  deriving DecidableEq

def Kind.label : Kind → String
  | .empty => "empty"
  | .ints => "int[]"
  | .longs => "long[]"
  | .doubles => "double[]"
  | .boxed => "Object[]"
  | .shared => "shared"

instance : ShapeDomain Kind where
  domain := [.empty, .ints, .longs, .doubles, .boxed, .shared]
  label := Kind.label

theorem Kind.mem_domain (kind : Kind) : kind ∈ ShapeDomain.domain := by
  cases kind <;> decide

theorem Kind.nodup_domain : (ShapeDomain.domain (σ := Kind)).Nodup := by
  decide

def kind : Store → Kind
  | .empty => .empty
  | .ints _ => .ints
  | .longs _ => .longs
  | .doubles _ => .doubles
  | .boxed _ => .boxed
  | .shared _ => .shared

/-- The number of slots. -/
def capacity : Store → Nat
  | .empty => 0
  | .ints elements => elements.length
  | .longs elements => elements.length
  | .doubles elements => elements.length
  | .boxed elements => elements.length
  | .shared window => window.length

/-- What the slots hold, boxed. -/
def contents : Store → List Value
  | .empty => []
  | .ints elements => elements.map .int
  | .longs elements => elements.map .long
  | .doubles elements => elements.map .float
  | .boxed elements => elements
  | .shared window => window.contents

/-- The most compact store for some values: unboxed if all of them are 32-bit integers,
fixnums or doubles, tried in this order. -/
def ofValues (values : List Value) : Store :=
  if values.isEmpty then .empty
  else
    match values.mapM Value.int?, values.mapM Value.fixnum?, values.mapM Value.float? with
    | some elements, _, _ => .ints elements
    | none, some elements, _ => .longs elements
    | none, none, some elements => .doubles elements
    | none, none, none => .boxed values

end Store

end AdaptiveDispatch
