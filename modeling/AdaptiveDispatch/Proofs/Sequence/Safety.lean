import AdaptiveDispatch.Proofs.Sequence.Words
import Mathlib.Logic.Function.Basic

/-!
# Sequences never leave their stores

Sequences are made from values, from new stores, from windows and from the stores of other
sequences, and they are cloned and shared. `Sequences` keeps any number of them while this
happens in any order. An attempt that is refused leaves all of them as they were.

Every sequence that comes about is in bounds, so it is `Safe`: whatever is asked of it, no
sum overflows and nothing outside of a store is read. The range check at the entrance is the
only one that is needed.
-/

namespace AdaptiveDispatch

/-- A list that 64-bit numbers can count. Lists in memory are no longer. -/
abbrev Countable (α : Type) := { elements : List α // elements.length < UInt64.size }

/-- A store that belongs to one sequence. -/
abbrev OwnStore := { store : Store // store.kind ≠ .shared ∧ store.capacity < UInt64.size }

/-- The ways to make sequences. The sequences are named by numbers. -/
inductive Making where
  | empty (target : Nat)
  | ofValues (target : Nat) (values : Countable Value)
  | ofStore (target : Nat) (store : OwnStore) (size : Nat)
  | ofWindow (target : Nat) (identity : Identity) (elements : Countable Value)
      (offset length size : Nat)
  | ofStoreOf (target source size : Nat)
  | clone (target source : Nat)
  | share (target source start length : Nat) (identity : Identity)

/-- The sequence of the first slots of a window, if there is such a window. -/
def Sequence.ofWindow (backing : Backing) (offset length size : Nat) :
    Except Fault.Storage Sequence := do
  let window ← Window.ofRange backing offset length
  ofStore (.shared window) size

abbrev Sequences := Nat → Sequence

namespace Sequences

/-- Keep a sequence, if there is one. -/
def keep (sequences : Sequences) (target : Nat) : Except Fault.Storage Sequence → Sequences
  | .ok s => Function.update sequences target s
  | .error _ => sequences

/-- Keep a window and the sequence that it was made from, if there are such. -/
def keepShared (sequences : Sequences) (target source : Nat) :
    Except Fault.Storage (Sequence × Sequence) → Sequences
  | .ok (part, whole) => Function.update (Function.update sequences source whole) target part
  | .error _ => sequences

/-- What one attempt to make a sequence leaves. -/
def make (sequences : Sequences) : Making → Sequences
  | .empty target => sequences.keep target (.ok .empty)
  | .ofValues target values => sequences.keep target (.ok (.ofValues values.val))
  | .ofStore target store size => sequences.keep target (Sequence.ofStore store.val size)
  | .ofWindow target identity elements offset length size =>
      sequences.keep target (Sequence.ofWindow ⟨identity, elements.val⟩ offset length size)
  | .ofStoreOf target source size =>
      sequences.keep target (Sequence.ofStore (sequences source).store size)
  | .clone target source => sequences.keep target (.ok (sequences source))
  | .share target source start length identity =>
      sequences.keepShared target source ((sequences source).share start length identity)

/-- The sequences after some attempts. In the beginning all are empty. -/
def run (makings : List Making) : Sequences :=
  makings.foldl make fun _ => .empty

end Sequences

namespace Store

theorem fits_of_unshared {store : Store} (unshared : store.kind ≠ .shared) : store.Fits := by
  cases store with
  | shared window => exact absurd rfl unshared
  | _ => trivial

theorem addressable_of_unshared {store : Store} (unshared : store.kind ≠ .shared)
    (short : store.capacity < UInt64.size) : store.Addressable := by
  cases store with
  | shared window => exact absurd rfl unshared
  | _ => exact short

theorem kind_ofValues_ne (values : List Value) : (ofValues values).kind ≠ .shared := by
  rw [ofValues]
  split
  · nofun
  · split <;> nofun

theorem capacity_ofValues (values : List Value) :
    (ofValues values).capacity = values.length := by
  rw [← length_contents (fits_ofValues values), contents_ofValues, Elements.length_ofValues]

end Store

namespace Sequence

/-- Nothing that is asked of a sequence overflows or reaches outside of its store, and the
windows of a share are made whenever its range is within the size. -/
structure Safe (s : Sequence) : Prop where
  size_le_capacity : s.size ≤ s.store.capacity
  window_le : ∀ window, s.window? = some window →
    window.offset + window.length ≤ window.backing.elements.length
  contents : ∀ window, s.window? = some window → Words.contents window = .ok window.contents
  copyRange : ∀ (site : SequenceSite) (start length : Nat),
    Words.Agrees (Words.copyRange site s start length) (site.copyRange s start length).1
  copyAll : ∀ site : SequenceSite, Words.Agrees (Words.copyAll site s) (site.copyAll s).1
  readAt : ∀ (site : SequenceSite) (index : Nat),
    Words.Agrees (Words.readAt site s index) (site.read s index).1
  share : ∀ (start length : Nat) (identity : Identity),
    Words.Agrees (Words.share s start length identity) (s.share start length identity)
  windows : ∀ (start length : Nat) (identity : Identity), s.checkRange start length = .ok () →
    ∃ whole part, s.sharedWindow identity = .ok whole ∧
      Window.ofRange whole.backing (whole.offset + start) length = .ok part

theorem InBounds.safe {s : Sequence} (inBounds : s.InBounds) : s.Safe where
  size_le_capacity := inBounds.bounded
  window_le := by
    intro window shared
    exact (inBounds.window shared).1
  contents := by
    intro window shared
    obtain ⟨behind, _, short⟩ := inBounds.window shared
    exact Words.contents_eq behind short
  copyRange := Words.copyRange_agrees inBounds
  copyAll := Words.copyAll_agrees inBounds
  readAt := Words.readAt_agrees inBounds
  share := Words.share_agrees inBounds
  windows := by
    intro start length identity accepted
    have wf := inBounds.toWellFormed
    exact ⟨_, _, sharedWindow_eq wf identity,
      ofRange_whole wf (inside_of_checkRange accepted) identity⟩

theorem inBounds_empty : empty.InBounds :=
  ⟨wellFormed_empty, show 0 < UInt64.size by decide⟩

theorem inBounds_ofValues {values : List Value} (short : values.length < UInt64.size) :
    (ofValues values).InBounds := by
  refine ⟨wellFormed_ofValues values, ?_⟩
  apply Store.addressable_of_unshared (Store.kind_ofValues_ne values)
  rw [Store.capacity_ofValues]
  exact short

theorem inBounds_of_ofStore {store : Store} {size : Nat} {s : Sequence} (fits : store.Fits)
    (addressable : store.Addressable) (made : ofStore store size = .ok s) : s.InBounds := by
  refine ⟨wellFormed_of_ofStore fits made, ?_⟩
  rw [ofStore] at made
  split at made
  · cases made
    exact addressable
  · cases made

/-- Only windows that lie within their backing list are made, and then their stores fit. -/
theorem inBounds_of_ofWindow {backing : Backing} {offset length size : Nat} {s : Sequence}
    (short : backing.elements.length < UInt64.size)
    (made : ofWindow backing offset length size = .ok s) : s.InBounds := by
  by_cases fits : offset + length ≤ backing.elements.length
  · have store_fits : Store.Fits (.shared ⟨backing, offset, length⟩) := fits
    rw [ofWindow, Window.ofRange_eq_ok fits] at made
    exact inBounds_of_ofStore store_fits short made
  · rw [ofWindow, Window.ofRange, if_neg fits] at made
    cases made

theorem inBounds_of_share {s part whole : Sequence} {start length : Nat} {identity : Identity}
    (inBounds : s.InBounds) (made : s.share start length identity = .ok (part, whole)) :
    part.InBounds ∧ whole.InBounds := by
  by_cases inside : start + length ≤ s.size
  · rw [share_of_inside inBounds.toWellFormed inside] at made
    cases made
    exact ⟨inBounds.part inside identity, inBounds.whole identity⟩
  · rw [share_of_outside inside] at made
    cases made

end Sequence

namespace Sequences

def InBounds (sequences : Sequences) : Prop :=
  ∀ target, (sequences target).InBounds

variable {sequences : Sequences}

theorem InBounds.update (all : sequences.InBounds) (target : Nat) {s : Sequence}
    (inBounds : s.InBounds) : InBounds (Function.update sequences target s) := by
  apply (Function.forall_update_iff sequences fun _ s => s.InBounds).mpr
  exact ⟨inBounds, fun other _ => all other⟩

theorem InBounds.keep (all : sequences.InBounds) (target : Nat)
    {made : Except Fault.Storage Sequence} (inBounds : ∀ s, made = .ok s → s.InBounds) :
    (sequences.keep target made).InBounds := by
  cases made with
  | ok s => exact all.update target (inBounds s rfl)
  | error fault => exact all

theorem InBounds.keepShared (all : sequences.InBounds) (target source : Nat)
    {made : Except Fault.Storage (Sequence × Sequence)}
    (inBounds : ∀ part whole, made = .ok (part, whole) → part.InBounds ∧ whole.InBounds) :
    (sequences.keepShared target source made).InBounds := by
  cases made with
  | ok made =>
      obtain ⟨part, whole⟩ := made
      obtain ⟨part_inBounds, whole_inBounds⟩ := inBounds part whole rfl
      exact (all.update source whole_inBounds).update target part_inBounds
  | error fault => exact all

/-- No way to make a sequence leads out of bounds. -/
theorem InBounds.make (all : sequences.InBounds) (making : Making) :
    (sequences.make making).InBounds := by
  cases making with
  | empty target => exact all.update target Sequence.inBounds_empty
  | ofValues target values => exact all.update target (Sequence.inBounds_ofValues values.property)
  | ofStore target store size =>
      obtain ⟨unshared, short⟩ := store.property
      apply all.keep target
      intro s made
      exact Sequence.inBounds_of_ofStore (Store.fits_of_unshared unshared)
        (Store.addressable_of_unshared unshared short) made
  | ofWindow target identity elements offset length size =>
      apply all.keep target
      intro s made
      exact Sequence.inBounds_of_ofWindow elements.property made
  | ofStoreOf target source size =>
      apply all.keep target
      intro s made
      exact Sequence.inBounds_of_ofStore (all source).fits (all source).addressable made
  | clone target source => exact all.update target (all source)
  | share target source start length identity =>
      apply all.keepShared target source
      intro part whole made
      exact Sequence.inBounds_of_share (all source) made

theorem InBounds.foldl (all : sequences.InBounds) (makings : List Making) :
    InBounds (makings.foldl Sequences.make sequences) := by
  induction makings generalizing sequences with
  | nil => exact all
  | cons making makings ih => exact ih (all.make making)

theorem inBounds_run (makings : List Making) : (run makings).InBounds :=
  InBounds.foldl (fun _ => Sequence.inBounds_empty) makings

/-- Whatever sequences are made, all of them are safe, also as the arguments of a call. -/
theorem run_safe (makings : List Making) :
    (∀ target, (run makings target).Safe) ∧
      ∀ (site : SequenceSite) (sources : List Nat),
        Words.Agrees (Words.unsplat site (sources.map (run makings)))
          (site.unsplat (sources.map (run makings))).1 := by
  have all := inBounds_run makings
  refine ⟨fun target => (all target).safe, ?_⟩
  intro site sources
  apply Words.unsplat_agrees
  intro s mem
  obtain ⟨source, _, rfl⟩ := List.mem_map.mp mem
  exact all source

/-- A window of a window starts where both ranges put it. -/
example :
    let values : Countable Value := ⟨[.int 5, .int 6, .int 7], by decide⟩
    run [.ofValues 0 values, .share 1 0 1 2 7, .share 2 1 1 1 8] 2 =
      ⟨.shared ⟨⟨7, values.val⟩, 2, 1⟩, 1⟩ := by
  decide

end Sequences

end AdaptiveDispatch
