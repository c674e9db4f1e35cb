import AdaptiveDispatch.Dispatch.Table
import AdaptiveDispatch.Sequence.Store

/-!
# Access to stores

There is an access for each kind of store, which knows its representation, and a generic
one that looks at the representation for every element. An access that meets a store of
another kind goes about it like the generic one.

An access does not know the size of a sequence. A range beyond the slots of the store is
reported as such; callers check their ranges against the size first, and then it does
not happen.
-/

namespace AdaptiveDispatch

inductive Access where
  | direct (kind : Store.Kind)
  | generic
  deriving DecidableEq

namespace Access

/-- The element in a slot. -/
def slot (elements : List α) (index : Nat) : Except Fault.Storage α :=
  match elements[index]? with
  | some element => .ok element
  | none => .error (.outsideStore index 1 elements.length)

/-- The elements in a range of slots. -/
def slice (elements : List α) (start length : Nat) : Except Fault.Storage (List α) :=
  if start + length ≤ elements.length then .ok ((elements.drop start).take length)
  else .error (.outsideStore start length elements.length)

/-- The boxed element in a slot of any store. The empty store reads as `nil` in all of
them. -/
def readAny : Store → Nat → Except Fault.Storage Value
  | .empty, _ => .ok .nil
  | .ints elements, index => (slot elements index).map .int
  | .longs elements, index => (slot elements index).map .long
  | .doubles elements, index => (slot elements index).map .float
  | .boxed elements, index => slot elements index
  | .shared window, index => slot window.contents index

/-- The boxed elements of a range of slots of any store, read one by one. -/
def copyAny (store : Store) (start : Nat) : Nat → Except Fault.Storage (List Value)
  | 0 => .ok []
  | length + 1 => do
      let value ← readAny store start
      let values ← copyAny store (start + 1) length
      return value :: values

/-- The kind an access belongs to. The generic one counts as boxed. -/
def kind : Access → Store.Kind
  | .direct kind => kind
  | .generic => .boxed

/-- The number of slots an access sees in a store. -/
def capacity : Access → Store → Nat
  | .direct .empty, _ => 0
  | _, store => store.capacity

/-- The boxed element in a slot. -/
def read : Access → Store → Nat → Except Fault.Storage Value
  | .direct .ints, .ints elements, index => (slot elements index).map .int
  | .direct .longs, .longs elements, index => (slot elements index).map .long
  | .direct .doubles, .doubles elements, index => (slot elements index).map .float
  | .direct .boxed, .boxed elements, index => slot elements index
  | .direct .shared, .shared window, index => slot window.contents index
  | _, store, index => readAny store index

/-- The boxed elements of a range of slots. -/
def copy : Access → Store → Nat → Nat → Except Fault.Storage (List Value)
  | .direct .empty, .empty, _, _ => .ok []
  | .direct .ints, .ints elements, start, length =>
      (slice elements start length).map (·.map .int)
  | .direct .longs, .longs elements, start, length =>
      (slice elements start length).map (·.map .long)
  | .direct .doubles, .doubles elements, start, length =>
      (slice elements start length).map (·.map .float)
  | .direct .boxed, .boxed elements, start, length => slice elements start length
  | .direct .shared, .shared window, start, length => slice window.contents start length
  | _, store, start, length => copyAny store start length

/-- One rule for each kind of store. -/
def rules : List (Rule Store.Kind Access) :=
  [⟨"empty", fun kind => kind == .empty, .direct .empty⟩,
    ⟨"int", fun kind => kind == .ints, .direct .ints⟩,
    ⟨"long", fun kind => kind == .longs, .direct .longs⟩,
    ⟨"double", fun kind => kind == .doubles, .direct .doubles⟩,
    ⟨"object", fun kind => kind == .boxed, .direct .boxed⟩,
    ⟨"shared", fun kind => kind == .shared, .direct .shared⟩]

/-- The rule table for sites that read sequences. -/
def table : Except Fault.Setup (RuleTable Store.Kind Access) :=
  RuleTable.build rules .generic

end Access

end AdaptiveDispatch
