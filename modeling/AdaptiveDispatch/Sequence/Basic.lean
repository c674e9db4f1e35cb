import AdaptiveDispatch.Sequence.Access

/-!
# Sequences

A sequence is a store together with a size. The first `size` slots hold its elements and
the rest is spare. Every constructor keeps the size within the capacity; a request
beyond the size is refused even where there are spare slots.

`share` makes a window of a sequence. The first time this turns the sequence's own store
into a shared one, which later windows use too.
-/

namespace AdaptiveDispatch

structure Sequence where
  store : Store
  size : Nat
  deriving DecidableEq

namespace Sequence

/-- The sequence without elements and without slots. -/
def empty : Sequence :=
  ⟨.empty, 0⟩

instance : Inhabited Sequence := ⟨empty⟩

/-- A sequence of the first `size` elements of a store. -/
def ofStore (store : Store) (size : Nat) : Except Fault.Storage Sequence :=
  if size ≤ store.capacity then .ok ⟨store, size⟩
  else .error (.capacityExceeded size store.capacity)

/-- The sequence of some values, stored as compactly as possible. -/
def ofValues (values : List Value) : Sequence :=
  ⟨.ofValues values, values.length⟩

def isEmpty (s : Sequence) : Bool :=
  s.size == 0

/-- The elements of a sequence, without the spare slots. -/
def toList (s : Sequence) : List Value :=
  s.store.contents.take s.size

/-- Refuse a range that reaches beyond the size. -/
def checkRange (s : Sequence) (start length : Nat) : Except Fault.Storage Unit :=
  if start + length ≤ s.size then .ok ()
  else .error (.outOfRange start length s.size)

/-- The window that a sequence with a shared store looks through. -/
def window? (s : Sequence) : Option Window :=
  match s.store with
  | .shared window => some window
  | _ => none

/-- For two sequences with shared stores, whether they look at one backing list. -/
def sharesBacking? (s t : Sequence) : Option Bool := do
  return (← s.window?).sharesBacking (← t.window?)

/-- The window through which a sequence is shared: its own, or one over a new backing
list of its elements. -/
def sharedWindow (s : Sequence) (identity : Identity) : Except Fault.Storage Window :=
  match s.store with
  | .shared window => .ok window
  | store => do
      let elements ← Access.copyAny store 0 s.size
      Window.ofRange ⟨identity, elements⟩ 0 s.size

/-- A window of a range of a sequence, and the sequence with its shared store. The
identity is for a new backing list. -/
def share (s : Sequence) (start length : Nat) (identity : Identity) :
    Except Fault.Storage (Sequence × Sequence) := do
  s.checkRange start length
  let whole ← s.sharedWindow identity
  let part ← Window.ofRange whole.backing (whole.offset + start) length
  return (⟨.shared part, length⟩, ⟨.shared whole, s.size⟩)

end Sequence

end AdaptiveDispatch
