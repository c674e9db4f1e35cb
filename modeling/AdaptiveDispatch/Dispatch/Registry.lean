import AdaptiveDispatch.Fault

/-!
# Sites and their registry

A site is a place in a program where one operation happens. Sites are numbered from zero
in the order in which they are registered, with 32-bit numbers, and what is registered
at a site stays there.
-/

namespace AdaptiveDispatch

structure SiteId where
  number : UInt32
  deriving DecidableEq

namespace SiteId

/-- The site at a position, if the position is a 32-bit number. -/
def ofIndex? (index : Nat) : Option SiteId :=
  if index < UInt32.size then some ⟨UInt32.ofNat index⟩ else none

def index (id : SiteId) : Nat :=
  id.number.toNat

theorem ofIndex?_eq_some_iff {index : Nat} {id : SiteId} :
    ofIndex? index = some id ↔ id.index = index := by
  obtain ⟨number⟩ := id
  simp only [ofIndex?, SiteId.index, Option.ite_none_right_eq_some, Option.some.injEq,
    SiteId.mk.injEq]
  constructor
  · rintro ⟨h, rfl⟩
    exact UInt32.toNat_ofNat_of_lt' h
  · rintro rfl
    exact ⟨number.toNat_lt, UInt32.ofNat_toNat⟩

/-- The text of a site, such as `site#3`. -/
def display (id : SiteId) : String :=
  s!"site#{id.index}"

end SiteId

/-- What is registered, in the order of the site numbers. -/
structure Registry (α : Type) where
  entries : List α

namespace Registry

variable {α : Type}

def empty : Registry α :=
  ⟨[]⟩

def size (registry : Registry α) : Nat :=
  registry.entries.length

/-- Register what `make` builds for the next site. Once every number is taken this
fails. -/
def allocate (registry : Registry α) (make : SiteId → α) :
    Except Fault.Setup (SiteId × Registry α) :=
  match SiteId.ofIndex? registry.size with
  | some id => .ok (id, ⟨registry.entries ++ [make id]⟩)
  | none => .error (.tooManySites registry.size)

def get? (registry : Registry α) (id : SiteId) : Option α :=
  registry.entries[id.index]?

/-- Replace what is registered at a site; an unregistered site stays unregistered. -/
def set (registry : Registry α) (id : SiteId) (entry : α) : Registry α :=
  ⟨registry.entries.set id.index entry⟩

@[simp] theorem size_set (registry : Registry α) (id : SiteId) (entry : α) :
    (registry.set id entry).size = registry.size := by
  simp [set, size]

/-- Only the entry of the site changes. -/
theorem get?_set (registry : Registry α) (id other : SiteId) (entry : α) :
    (registry.set id entry).get? other =
      if id.index = other.index then (registry.get? other).map fun _ => entry
      else registry.get? other := by
  simp only [set, get?, List.getElem?_set', Option.map_eq_map]
  rfl

/-- How many entries fall into each class of a list, for the classes that occur. -/
def census [DecidableEq κ] (registry : Registry α) (classify : α → κ) (classes : List κ) :
    List (κ × Nat) :=
  classes.filterMap fun kind =>
    let count := registry.entries.countP fun entry => decide (classify entry = kind)
    if count = 0 then none else some (kind, count)

end Registry

end AdaptiveDispatch
