import AdaptiveDispatch.Sequence.Access

/-!
# What an access reads

Within the slots of a store every access reads what the slots hold, and copies the
sublist of a range. This needs no agreement between the access and the kind of the
store: an access that meets a store of another kind goes about it like the generic one.
So a site gives the right elements whatever its cache hands out.

Windows have to lie within their backing list for this, and all that are made do.
-/

namespace AdaptiveDispatch

/-- A range of the first elements of a list is the same range of the whole list. -/
theorem range_take {α : Type} (l : List α) {start length size : Nat}
    (inside : start + length ≤ size) :
    ((l.take size).drop start).take length = (l.drop start).take length := by
  have shorter : length ≤ size - start := by omega
  rw [List.drop_take, List.take_take, Nat.min_eq_left shorter]

/-- Reading the positions of a range one by one yields the sublist. -/
theorem mapM_range' {α ε : Type} {l : List α} {read : Nat → Except ε α} {start length : Nat}
    (reads : ∀ index a, l[index]? = some a → read index = .ok a)
    (inside : start + length ≤ l.length) :
    (List.range' start length).mapM read = .ok ((l.drop start).take length) := by
  induction length generalizing start with
  | zero => rfl
  | succ length ih =>
      have bound : start < l.length := by omega
      have rest := ih (show start + 1 + length ≤ l.length by omega)
      rw [List.range'_succ, List.mapM_cons, rest, reads start _ (List.getElem?_eq_getElem bound),
        List.drop_eq_getElem_cons bound, List.take_succ_cons]
      rfl

namespace Window

/-- The window lies within its backing list. -/
def Fits (window : Window) : Prop :=
  window.offset + window.length ≤ window.backing.elements.length

instance (window : Window) : Decidable window.Fits :=
  inferInstanceAs (Decidable (_ ≤ _))

theorem ofRange_eq_ok {backing : Backing} {offset length : Nat}
    (fits : offset + length ≤ backing.elements.length) :
    ofRange backing offset length = .ok ⟨backing, offset, length⟩ :=
  if_pos fits

theorem length_contents {window : Window} (fits : window.Fits) :
    window.contents.length = window.length := by
  unfold Fits at fits
  rw [contents, List.length_take, List.length_drop]
  omega

/-- The window of a range of a window, in the same backing list. -/
def part (window : Window) (start length : Nat) : Window :=
  ⟨window.backing, window.offset + start, length⟩

theorem Fits.part {window : Window} {start length : Nat} (fits : window.Fits)
    (inside : start + length ≤ window.length) : (window.part start length).Fits := by
  unfold Fits at fits ⊢
  show window.offset + start + length ≤ window.backing.elements.length
  omega

theorem part_part (window : Window) (start length start' length' : Nat) :
    (window.part start length).part start' length' = window.part (start + start') length' := by
  simp only [part, Nat.add_assoc]

theorem contents_part (window : Window) {start length : Nat}
    (inside : start + length ≤ window.length) :
    (window.part start length).contents = (window.contents.drop start).take length := by
  rw [contents, contents, range_take _ inside, List.drop_drop]
  rfl

end Window

namespace Store

/-- The slots of the store really are there. -/
def Fits : Store → Prop
  | .shared window => window.Fits
  | _ => True

instance : (store : Store) → Decidable store.Fits
  | .shared window => inferInstanceAs (Decidable window.Fits)
  | .empty | .ints _ | .longs _ | .doubles _ | .boxed _ => isTrue trivial

theorem length_contents {store : Store} (fits : store.Fits) :
    store.contents.length = store.capacity := by
  cases store with
  | empty => rfl
  | ints elements => exact List.length_map _
  | longs elements => exact List.length_map _
  | doubles elements => exact List.length_map _
  | boxed elements => rfl
  | shared window => exact Window.length_contents fits

end Store

namespace Access

variable {α β : Type} {store : Store} {start length : Nat}

theorem slot_map (elements : List α) (box : α → β) {index : Nat} {v : β}
    (there : (elements.map box)[index]? = some v) : (slot elements index).map box = .ok v := by
  rw [List.getElem?_map, Option.map_eq_some_iff] at there
  obtain ⟨element, there, rfl⟩ := there
  rw [slot, there]
  rfl

theorem slot_eq {elements : List α} {index : Nat} {v : α} (there : elements[index]? = some v) :
    slot elements index = .ok v := by
  rw [slot, there]

theorem slice_map (elements : List α) (box : α → β)
    (inside : start + length ≤ (elements.map box).length) :
    (slice elements start length).map (·.map box) =
      .ok (((elements.map box).drop start).take length) := by
  rw [List.length_map] at inside
  rw [slice, if_pos inside, ← List.map_drop, ← List.map_take]
  rfl

theorem slice_eq {elements : List α} (inside : start + length ≤ elements.length) :
    slice elements start length = .ok ((elements.drop start).take length) :=
  if_pos inside

/-- The generic access reads what is in a slot. -/
theorem readAny_eq {index : Nat} {v : Value} (there : store.contents[index]? = some v) :
    readAny store index = .ok v := by
  cases store with
  | empty => simp [Store.contents] at there
  | ints elements => exact slot_map elements Value.int there
  | longs elements => exact slot_map elements Value.long there
  | doubles elements => exact slot_map elements Value.float there
  | boxed elements => exact slot_eq there
  | shared window => exact slot_eq there

/-- So does every other, whatever the kind of the store. -/
theorem read_eq (access : Access) {index : Nat} {v : Value}
    (there : store.contents[index]? = some v) : access.read store index = .ok v := by
  have generic := readAny_eq there
  cases access with
  | generic => exact generic
  | direct kind => cases kind <;> cases store <;> exact generic

theorem copyAny_eq_mapM (store : Store) (start length : Nat) :
    copyAny store start length = (List.range' start length).mapM (readAny store) := by
  induction length generalizing start with
  | zero => rfl
  | succ length ih => rw [copyAny, ih, List.range'_succ, List.mapM_cons]

theorem copyAny_eq (inside : start + length ≤ store.contents.length) :
    copyAny store start length = .ok ((store.contents.drop start).take length) := by
  rw [copyAny_eq_mapM]
  exact mapM_range' (fun _ _ => readAny_eq) inside

/-- Every access copies the sublist, whatever the kind of the store. -/
theorem copy_eq (access : Access) (inside : start + length ≤ store.contents.length) :
    access.copy store start length = .ok ((store.contents.drop start).take length) := by
  have generic := copyAny_eq inside
  cases access with
  | generic => exact generic
  | direct kind =>
      -- Only on its own kind of store does an access go about it differently.
      cases kind with
      | empty =>
          cases store with
          | empty => simp [copy, Store.contents]
          | _ => exact generic
      | ints =>
          cases store with
          | ints elements => exact slice_map elements Value.int inside
          | _ => exact generic
      | longs =>
          cases store with
          | longs elements => exact slice_map elements Value.long inside
          | _ => exact generic
      | doubles =>
          cases store with
          | doubles elements => exact slice_map elements Value.float inside
          | _ => exact generic
      | boxed =>
          cases store with
          | boxed elements => exact slice_eq inside
          | _ => exact generic
      | shared =>
          cases store with
          | shared window => exact slice_eq inside
          | _ => exact generic

end Access

end AdaptiveDispatch
