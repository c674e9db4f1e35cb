import AdaptiveDispatch.Proofs.Sequence.Access

/-!
# All accesses read alike

A site hands out an access for the kind of store that it expects, and the store may have
become another one in the meantime. So an access is asked about stores it was not made for.
It then counts their slots wrongly at worst, and only the access for empty stores does. What
it reads and copies is right: from every store, all accesses read the same elements, and a
copy of a range is made of the elements that are read there one by one.

The elements are compared as they are. Two doubles agree in their bits and two objects in
their identity.
-/

namespace AdaptiveDispatch.Access

variable {store : Store} {access : Access} {start length : Nat}

/-- An access is meant for the stores of its kind. The generic one is meant for all. -/
def Suits : Access → Store → Prop
  | .direct kind, store => kind = store.kind
  | .generic, _ => True

/-- Every access counts the slots of a store, except that the one for empty stores takes it
for granted that there are none. -/
theorem capacity_eq (access : Access) (store : Store) :
    access.capacity store = if access = .direct .empty then 0 else store.capacity := by
  cases access with
  | generic => rfl
  | direct kind => cases kind <;> rfl

theorem Suits.capacity_eq (suits : access.Suits store) :
    access.capacity store = store.capacity := by
  rw [Access.capacity_eq]
  split
  · rename_i empty
    subst empty
    have none : Store.Kind.empty = store.kind := suits
    cases store <;> cases none
    rfl
  · rfl

theorem exists_element (fits : store.Fits) {index : Nat} (inside : index < store.capacity) :
    ∃ v, store.contents[index]? = some v ∧ ∀ access : Access, access.read store index = .ok v := by
  rw [← Store.length_contents fits] at inside
  have there := List.getElem?_eq_getElem inside
  exact ⟨_, there, fun access => read_eq access there⟩

/-- The elements of a range, read one by one. -/
theorem mapM_read (access : Access) (inside : start + length ≤ store.contents.length) :
    (List.range' start length).mapM (access.read store) =
      .ok ((store.contents.drop start).take length) :=
  mapM_range' (fun _ _ => read_eq access) inside

/-- An access that suits a store counts its slots. Whether they suit it or not, all accesses
read the same element from each slot, and all of them copy from each range the elements that
are read there. -/
theorem accesses_agree (fits : store.Fits) :
    (∀ access : Access, access.Suits store → access.capacity store = store.contents.length) ∧
    (∀ index < store.capacity, ∃ v, store.contents[index]? = some v ∧
      ∀ access : Access, access.read store index = .ok v) ∧
    ∀ start length, start + length ≤ store.capacity →
      ∃ values : List Value, values.length = length ∧
        values = (store.contents.drop start).take length ∧
        ∀ access : Access, access.copy store start length = .ok values ∧
          (List.range' start length).mapM (access.read store) = .ok values := by
  have slots := Store.length_contents fits
  refine ⟨?_, fun index inside => exists_element fits inside, ?_⟩
  · intro access suits
    rw [slots]
    exact suits.capacity_eq
  · intro start length inside
    rw [← slots] at inside
    have rest : length ≤ store.contents.length - start := by omega
    refine ⟨_, ?_, rfl, fun access => ⟨copy_eq access inside, mapM_read access inside⟩⟩
    rw [List.length_take, List.length_drop]
    exact Nat.min_eq_left rest

/-- The access for boxed stores meets a window of a backing list that is longer than it. -/
theorem accesses_agree_window :
    let window : Window := ⟨⟨4, [.nil, .float .nan, .object 7 "Box" [], .int 1]⟩, 1, 2⟩
    Store.Fits (.shared window) ∧ (Access.direct .shared).Suits (.shared window) ∧
      (Access.direct .boxed).copy (.shared window) 0 2 =
        .ok [.float .nan, .object 7 "Box" []] := by
  intro window
  have fits : Store.Fits (.shared window) := by decide
  obtain ⟨_, _, copied⟩ := accesses_agree fits
  obtain ⟨values, _, rfl, alike⟩ := copied 0 2 (by decide)
  exact ⟨fits, rfl, (alike (.direct .boxed)).1⟩

end AdaptiveDispatch.Access
