import AdaptiveDispatch.Proofs.Sequence.Access
import AdaptiveDispatch.Sequence.Site

/-!
# Sequences are lists

The elements of a sequence are a plain list, and each operation on sequences is compared
here with the operation on that list. `Elements` has the operations on lists. They know
nothing of stores, sizes or sites.

A sequence is `WellFormed` if its size is within the capacity of a store that fits.
Every operation that makes sequences makes well-formed ones.
-/

namespace AdaptiveDispatch

/-- The elements that a sequence stands for. -/
abbrev Elements := List Value

namespace Elements

/-- Refuse a range that reaches beyond the end. -/
def checkRange (elements : Elements) (start length : Nat) : Except Fault.Storage Unit :=
  if start + length ≤ elements.length then .ok ()
  else .error (.outOfRange start length elements.length)

/-- The sublist of a range. -/
def range (elements : Elements) (start length : Nat) : Except Fault.Storage Elements :=
  if start + length ≤ elements.length then .ok ((elements.drop start).take length)
  else .error (.outOfRange start length elements.length)

/-- The element at an index. -/
def element (elements : Elements) (index : Nat) : Except Fault.Storage Value :=
  match elements[index]? with
  | some v => .ok v
  | none => .error (.outOfRange index 1 elements.length)

/-- The first elements of the slots of a store. -/
def first (slots : Elements) (size : Nat) : Except Fault.Storage Elements :=
  if size ≤ slots.length then .ok (slots.take size)
  else .error (.capacityExceeded size slots.length)

/-- The only list of several. -/
def only : List Elements → Except Fault.Storage Elements
  | [elements] => .ok elements
  | arguments => .error (.arityMismatch arguments.length 1)

/-- A fixnum in 64 bits. Other values stay as they are. -/
def widen (v : Value) : Value :=
  match v.fixnum? with
  | some n => .long n
  | none => v

/-- What a sequence made of some values holds. The fixnums are widened if there are no
other values, and some have 64 bits. -/
def ofValues (values : List Value) : Elements :=
  if values.all (·.int?.isSome) then values
  else if values.all (·.fixnum?.isSome) then values.map widen
  else values

theorem length_ofValues (values : List Value) :
    (ofValues values).length = values.length := by
  unfold ofValues
  split
  · rfl
  · split
    · exact List.length_map _
    · rfl

end Elements

namespace Store

section OfValues

variable {α β : Type} {f : α → Option β}

private theorem isSome_mapM (f : α → Option β) (l : List α) :
    (l.mapM f).isSome = l.all fun a => (f a).isSome := by
  induction l with
  | nil => rfl
  | cons a l ih =>
      rw [List.mapM_cons, List.all_cons, ← ih]
      cases f a with
      | none => rfl
      | some b =>
          cases l.mapM f with
          | none => rfl
          | some rest => rfl

private theorem map_of_mapM {γ : Type} {box : β → γ} {view : α → γ}
    (boxed : ∀ a b, f a = some b → box b = view a) {l : List α} {l' : List β}
    (all : l.mapM f = some l') : l'.map box = l.map view := by
  induction l generalizing l' with
  | nil =>
      cases all
      rfl
  | cons a l ih =>
      rw [List.mapM_cons] at all
      obtain ⟨b, head, all⟩ := Option.bind_eq_some_iff.mp all
      obtain ⟨rest, tail, all⟩ := Option.bind_eq_some_iff.mp all
      cases all
      rw [List.map_cons, List.map_cons, boxed a b head, ih tail]

end OfValues

/-- The most compact store for some values holds them, possibly widened. -/
theorem contents_ofValues (values : List Value) :
    (ofValues values).contents = Elements.ofValues values := by
  have boxed_int : ∀ v n, Value.int? v = some n → Value.int n = id v := by
    intro v n found
    cases v <;> cases found
    rfl
  have boxed_long : ∀ v n, Value.fixnum? v = some n → Value.long n = Elements.widen v := by
    intro v n found
    rw [Elements.widen, found]
  have boxed_float : ∀ v x, Value.float? v = some x → Value.float x = id v := by
    intro v x found
    cases v <;> cases found
    rfl
  have ints := isSome_mapM Value.int? values
  have fixnums := isSome_mapM Value.fixnum? values
  unfold ofValues Elements.ofValues
  rw [← ints, ← fixnums]
  by_cases empty : values.isEmpty
  · have none : values = [] := List.isEmpty_iff.mp empty
    subst none
    rfl
  · rw [if_neg empty]
    cases int : values.mapM Value.int? with
    | some elements =>
        have whole := map_of_mapM boxed_int int
        rw [List.map_id] at whole
        exact whole
    | none =>
        cases fixnum : values.mapM Value.fixnum? with
        | some elements => exact map_of_mapM boxed_long fixnum
        | none =>
            cases float : values.mapM Value.float? with
            | some elements =>
                have whole := map_of_mapM boxed_float float
                rw [List.map_id] at whole
                exact whole
            | none => rfl

theorem fits_ofValues (values : List Value) : (ofValues values).Fits := by
  unfold ofValues
  split
  · trivial
  · split
    · trivial
    · trivial
    · trivial
    · trivial

end Store

namespace Sequence

variable {s : Sequence} {start length : Nat}

/-- The size is within the capacity, and the slots are there. -/
structure WellFormed (s : Sequence) : Prop where
  fits : s.store.Fits
  bounded : s.size ≤ s.store.capacity

theorem wellFormed_empty : empty.WellFormed :=
  ⟨trivial, Nat.le_refl 0⟩

theorem WellFormed.size_le (wf : s.WellFormed) : s.size ≤ s.store.contents.length := by
  rw [Store.length_contents wf.fits]
  exact wf.bounded

@[simp] theorem WellFormed.length_toList (wf : s.WellFormed) : s.toList.length = s.size := by
  rw [toList, List.length_take]
  exact Nat.min_eq_left wf.size_le

theorem checkRange_eq (wf : s.WellFormed) (start length : Nat) :
    s.checkRange start length = Elements.checkRange s.toList start length := by
  rw [Elements.checkRange, wf.length_toList]
  rfl

theorem checkRange_of_inside (inside : start + length ≤ s.size) :
    s.checkRange start length = .ok () :=
  if_pos inside

theorem checkRange_of_outside (outside : ¬ start + length ≤ s.size) :
    s.checkRange start length = .error (.outOfRange start length s.size) :=
  if_neg outside

theorem inside_of_checkRange (accepted : s.checkRange start length = .ok ()) :
    start + length ≤ s.size := by
  apply Decidable.byContradiction
  intro outside
  rw [checkRange_of_outside outside] at accepted
  cases accepted

/-- The sum of two 64-bit numbers, if it is one itself. -/
def checkedAdd? (m n : Nat) : Option Nat :=
  if m + n < UInt64.size then some (m + n) else none

/-- A sum that overflows 64 bits is beyond any size that does not. So the check may be
made in 64 bits. -/
theorem checkRange_eq_checked (s : Sequence) (bounded : s.size < UInt64.size)
    (start length : Nat) :
    s.checkRange start length =
      match checkedAdd? start length with
      | some stop => if stop ≤ s.size then .ok () else .error (.outOfRange start length s.size)
      | none => .error (.outOfRange start length s.size) := by
  rw [checkRange, checkedAdd?]
  by_cases representable : start + length < UInt64.size
  · rw [if_pos representable]
  · have outside : ¬ start + length ≤ s.size := by omega
    rw [if_neg representable, if_neg outside]

/-- Wrapping a store takes the first of its slots. -/
theorem ofStore_eq {store : Store} (fits : store.Fits) (size : Nat) :
    (ofStore store size).map toList = Elements.first store.contents size := by
  rw [ofStore, Elements.first, Store.length_contents fits]
  by_cases bounded : size ≤ store.capacity
  · rw [if_pos bounded, if_pos bounded]
    rfl
  · rw [if_neg bounded, if_neg bounded]
    rfl

theorem wellFormed_of_ofStore {store : Store} {size : Nat} (fits : store.Fits)
    (made : ofStore store size = .ok s) : s.WellFormed := by
  rw [ofStore] at made
  split at made
  · rename_i bounded
    cases made
    exact ⟨fits, bounded⟩
  · cases made

theorem wellFormed_ofValues (values : List Value) : (ofValues values).WellFormed := by
  refine ⟨Store.fits_ofValues values, ?_⟩
  have slots := Store.length_contents (Store.fits_ofValues values)
  rw [Store.contents_ofValues, Elements.length_ofValues] at slots
  exact Nat.le_of_eq slots

theorem toList_ofValues (values : List Value) :
    (ofValues values).toList = Elements.ofValues values := by
  have whole : (Elements.ofValues values).length ≤ values.length :=
    Nat.le_of_eq (Elements.length_ofValues values)
  unfold toList
  rw [← Store.contents_ofValues] at whole ⊢
  exact List.take_of_length_le whole

theorem sharedWindow_of_shared {window : Window} (shared : s.window? = some window)
    (identity : Identity) : s.sharedWindow identity = .ok window := by
  obtain ⟨store, size⟩ := s
  cases store <;> cases shared
  rfl

/-- A store that is not shared yet is turned into a window over a copy of the
elements. -/
theorem sharedWindow_of_unshared (wf : s.WellFormed) (unshared : s.window? = none)
    (identity : Identity) :
    s.sharedWindow identity = .ok ⟨⟨identity, s.toList⟩, 0, s.size⟩ := by
  have unfolded : s.sharedWindow identity = (do
      let elements ← Access.copyAny s.store 0 s.size
      Window.ofRange ⟨identity, elements⟩ 0 s.size) := by
    obtain ⟨store, size⟩ := s
    cases store with
    | shared window => cases unshared
    | _ => rfl
  have slots : 0 + s.size ≤ s.store.contents.length := by
    rw [Nat.zero_add]
    exact wf.size_le
  have copied : Access.copyAny s.store 0 s.size = .ok s.toList := Access.copyAny_eq slots
  have fits : 0 + s.size ≤ s.toList.length := by
    have length := wf.length_toList
    omega
  rw [unfolded, copied]
  exact Window.ofRange_eq_ok fits

/-- The window through which a sequence is shared: its own, or one over a new backing list
of its elements. -/
def whole (s : Sequence) (identity : Identity) : Window :=
  s.window?.getD ⟨⟨identity, s.toList⟩, 0, s.size⟩

theorem whole_of_shared {window : Window} (shared : s.window? = some window)
    (identity : Identity) : s.whole identity = window := by
  rw [whole, shared]
  rfl

theorem whole_of_unshared (unshared : s.window? = none) (identity : Identity) :
    s.whole identity = ⟨⟨identity, s.toList⟩, 0, s.size⟩ := by
  rw [whole, unshared]
  rfl

theorem sharedWindow_eq (wf : s.WellFormed) (identity : Identity) :
    s.sharedWindow identity = .ok (s.whole identity) := by
  cases shared : s.window? with
  | some window => rw [sharedWindow_of_shared shared, whole_of_shared shared]
  | none => rw [sharedWindow_of_unshared wf shared, whole_of_unshared shared]

/-- Through this window, the sequence is well-formed and shows its elements. -/
theorem WellFormed.whole (wf : s.WellFormed) (identity : Identity) :
    WellFormed ⟨.shared (s.whole identity), s.size⟩ ∧
      toList ⟨.shared (s.whole identity), s.size⟩ = s.toList := by
  cases shared : s.window? with
  | some window =>
      rw [whole_of_shared shared]
      obtain ⟨store, size⟩ := s
      cases store <;> cases shared
      exact ⟨wf, rfl⟩
  | none =>
      have length := wf.length_toList
      have all : s.toList.length ≤ s.size := Nat.le_of_eq length
      rw [whole_of_unshared shared]
      refine ⟨⟨?_, Nat.le_refl s.size⟩, ?_⟩
      · show 0 + s.size ≤ s.toList.length
        omega
      · show ((s.toList.drop 0).take s.size).take s.size = s.toList
        rw [List.drop_zero, List.take_take, Nat.min_self, List.take_of_length_le all]

theorem share_of_outside (outside : ¬ start + length ≤ s.size) (identity : Identity) :
    s.share start length identity = .error (.outOfRange start length s.size) := by
  have refused : s.checkRange start length = .error (.outOfRange start length s.size) :=
    if_neg outside
  rw [share, refused]
  rfl

/-- The window of a range within the size is always made. -/
theorem ofRange_whole (wf : s.WellFormed) (inside : start + length ≤ s.size)
    (identity : Identity) :
    Window.ofRange (s.whole identity).backing ((s.whole identity).offset + start) length =
      .ok ((s.whole identity).part start length) := by
  obtain ⟨shared, _⟩ := wf.whole identity
  exact Window.ofRange_eq_ok (shared.fits.part (Nat.le_trans inside shared.bounded))

/-- Sharing a range of a sequence makes a window of the range, and leaves the sequence with
the window that it was taken from. -/
theorem share_of_inside (wf : s.WellFormed) (inside : start + length ≤ s.size)
    (identity : Identity) :
    s.share start length identity =
      .ok (⟨.shared ((s.whole identity).part start length), length⟩,
        ⟨.shared (s.whole identity), s.size⟩) := by
  rw [share, checkRange_of_inside inside, sharedWindow_eq wf]
  show (Window.ofRange (s.whole identity).backing _ length >>= _) = _
  rw [ofRange_whole wf inside]
  rfl

/-- A window of a range is a sequence of the sublist. -/
theorem WellFormed.part (wf : s.WellFormed) (inside : start + length ≤ s.size)
    (identity : Identity) :
    WellFormed ⟨.shared ((s.whole identity).part start length), length⟩ ∧
      toList ⟨.shared ((s.whole identity).part start length), length⟩ =
        (s.toList.drop start).take length := by
  obtain ⟨shared, shown⟩ := wf.whole identity
  have within : start + length ≤ (s.whole identity).length :=
    Nat.le_trans inside shared.bounded
  refine ⟨⟨shared.fits.part within, Nat.le_refl length⟩, ?_⟩
  rw [toList, Store.contents, Window.contents_part _ within, List.take_take, Nat.min_self, ← shown,
    toList, Store.contents, range_take _ inside]

end Sequence

namespace SequenceSite

variable {s : Sequence}

/-- A range is copied as from the list, whatever the site remembers. -/
theorem copyRange_eq (site : SequenceSite) (wf : s.WellFormed) (start length : Nat) :
    (site.copyRange s start length).1 = Elements.range s.toList start length := by
  rw [copyRange, Sequence.checkRange, Elements.range, wf.length_toList]
  by_cases inside : start + length ≤ s.size
  · rw [if_pos inside, if_pos inside, Sequence.toList, range_take _ inside]
    exact Access.copy_eq _ (Nat.le_trans inside wf.size_le)
  · rw [if_neg inside, if_neg inside]

theorem copyAll_eq (site : SequenceSite) (wf : s.WellFormed) :
    (site.copyAll s).1 = .ok s.toList := by
  have slots : 0 + s.size ≤ s.store.contents.length := by
    rw [Nat.zero_add]
    exact wf.size_le
  exact Access.copy_eq _ slots

theorem unsplat_eq (site : SequenceSite) {arguments : List Sequence}
    (wf : ∀ s ∈ arguments, s.WellFormed) :
    (site.unsplat arguments).1 = Elements.only (arguments.map Sequence.toList) := by
  match arguments with
  | [] => rfl
  | [s] => exact site.copyAll_eq (wf s (List.mem_singleton_self s))
  | first :: second :: rest =>
      rw [unsplat, List.map_cons, List.map_cons, Elements.only]
      · simp
      · simp
      · simp

theorem read_eq (site : SequenceSite) (wf : s.WellFormed) (index : Nat) :
    (site.read s index).1 = Elements.element s.toList index := by
  rw [read, Sequence.checkRange, Elements.element, wf.length_toList]
  by_cases inside : index + 1 ≤ s.size
  · have bound : index < s.store.contents.length := Nat.le_trans inside wf.size_le
    have there : s.toList[index]? = some s.store.contents[index] := by
      rw [Sequence.toList, List.getElem?_take_of_lt inside, List.getElem?_eq_getElem bound]
    rw [if_pos inside, there]
    exact Access.read_eq _ (List.getElem?_eq_getElem bound)
  · have beyond : s.toList[index]? = none := by
      rw [List.getElem?_eq_none_iff, wf.length_toList]
      omega
    rw [if_neg inside, beyond]

end SequenceSite

end AdaptiveDispatch
