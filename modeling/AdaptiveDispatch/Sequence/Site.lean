import AdaptiveDispatch.Dispatch.Cache
import AdaptiveDispatch.Sequence.Basic

/-!
# Sites that read sequences

A site remembers the kinds of stores it has met and the access for each. All operations
check their arguments first, so that a refused one leaves the site as it was.
-/

namespace AdaptiveDispatch

structure SequenceSite where
  cache : InlineCache Store.Kind Access

namespace SequenceSite

/-- A site that has met no store yet. -/
def new (id : SiteId) (table : RuleTable Store.Kind Access) (limit : Nat) : SequenceSite :=
  ⟨.new id table limit⟩

/-- The access for the present store of a sequence. -/
def resolve (site : SequenceSite) (s : Sequence) : Access × SequenceSite :=
  let (selection, cache) := site.cache.select s.store.kind
  (selection.implementation, ⟨cache⟩)

/-- A boxed copy of a range. -/
def copyRange (site : SequenceSite) (s : Sequence) (start length : Nat) :
    Except Fault.Storage (List Value) × SequenceSite :=
  match s.checkRange start length with
  | .error fault => (.error fault, site)
  | .ok () =>
      let (access, site) := site.resolve s
      (access.copy s.store start length, site)

/-- A boxed copy of all elements. -/
def copyAll (site : SequenceSite) (s : Sequence) :
    Except Fault.Storage (List Value) × SequenceSite :=
  let (access, site) := site.resolve s
  (access.copy s.store 0 s.size, site)

/-- The elements of the only argument of a call. -/
def unsplat (site : SequenceSite) :
    List Sequence → Except Fault.Storage (List Value) × SequenceSite
  | [s] => site.copyAll s
  | arguments => (.error (.arityMismatch arguments.length 1), site)

/-- The boxed element at an index. -/
def read (site : SequenceSite) (s : Sequence) (index : Nat) :
    Except Fault.Storage Value × SequenceSite :=
  match s.checkRange index 1 with
  | .error fault => (.error fault, site)
  | .ok () =>
      let (access, site) := site.resolve s
      (access.read s.store index, site)

end SequenceSite

end AdaptiveDispatch
