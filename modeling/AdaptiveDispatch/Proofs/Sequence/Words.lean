import AdaptiveDispatch.Proofs.Sequence.Contents

/-!
# Sequences in 64-bit arithmetic

Ranges are pairs of natural numbers here, and a sum of two of them is no risk. On a machine
the numbers have 64 bits. A range becomes a slice from its start to its end, the end is a
sum that may overflow, and a slice or an index outside of a list stops the program.

`Words` has every operation on sequences once more, step by step as such a machine takes
it. Only the two checks that refuse a range look for an overflow beforehand. All other sums
and slices are made in the belief that they are harmless, and for sequences that are
`InBounds` they are: each operation comes out as it does on natural numbers.
-/

namespace AdaptiveDispatch

/-- Why an operation has no result on a machine: it refuses its arguments, a sum overflows,
or it reaches outside of a list. -/
inductive Stop where
  | refused (fault : Fault.Storage)
  | overflow
  | outside
  deriving DecidableEq

/-- The list behind a store is short enough for 64-bit positions. -/
def Store.Addressable : Store → Prop
  | .shared window => window.backing.elements.length < UInt64.size
  | store => store.capacity < UInt64.size

theorem Store.length_contents_lt {store : Store} (fits : store.Fits)
    (addressable : store.Addressable) : store.contents.length < UInt64.size := by
  rw [Store.length_contents fits]
  cases store with
  | shared window =>
      have behind : window.offset + window.length ≤ window.backing.elements.length := fits
      have short : window.backing.elements.length < UInt64.size := addressable
      show window.length < UInt64.size
      omega
  | _ => exact addressable

/-- A well-formed sequence whose store has 64-bit positions. -/
structure Sequence.InBounds (s : Sequence) : Prop extends s.WellFormed where
  addressable : s.store.Addressable

/-- What a sequence in bounds says of its window. -/
theorem Sequence.InBounds.window {s : Sequence} {window : Window} (inBounds : s.InBounds)
    (shared : s.window? = some window) :
    window.offset + window.length ≤ window.backing.elements.length ∧ s.size ≤ window.length ∧
      window.backing.elements.length < UInt64.size := by
  obtain ⟨store, size⟩ := s
  cases store <;> cases shared
  exact ⟨inBounds.fits, inBounds.bounded, inBounds.addressable⟩

theorem Sequence.InBounds.size_lt {s : Sequence} (inBounds : s.InBounds) :
    s.size < UInt64.size :=
  Nat.lt_of_le_of_lt inBounds.size_le
    (Store.length_contents_lt inBounds.fits inBounds.addressable)

/-- A sequence in bounds stays so when it is shared. -/
theorem Sequence.InBounds.whole {s : Sequence} (inBounds : s.InBounds) (identity : Identity) :
    InBounds ⟨.shared (s.whole identity), s.size⟩ := by
  obtain ⟨wf, _⟩ := inBounds.toWellFormed.whole identity
  refine ⟨wf, ?_⟩
  cases shared : s.window? with
  | some window =>
      obtain ⟨_, _, short⟩ := inBounds.window shared
      rw [whole_of_shared shared]
      exact short
  | none =>
      rw [whole_of_unshared shared]
      show s.toList.length < UInt64.size
      rw [inBounds.length_toList]
      exact inBounds.size_lt

/-- And so is the window of one of its ranges. -/
theorem Sequence.InBounds.part {s : Sequence} {start length : Nat} (inBounds : s.InBounds)
    (inside : start + length ≤ s.size) (identity : Identity) :
    InBounds ⟨.shared ((s.whole identity).part start length), length⟩ := by
  obtain ⟨wf, _⟩ := inBounds.toWellFormed.part inside identity
  exact ⟨wf, (inBounds.whole identity).addressable⟩

namespace Words

variable {α : Type}

/-- A sum that is taken for granted. -/
def add (m n : Nat) : Except Stop Nat :=
  if m + n < UInt64.size then .ok (m + n) else .error .overflow

def element (elements : List α) (index : Nat) : Except Stop α :=
  match elements[index]? with
  | some a => .ok a
  | none => .error .outside

def slice (elements : List α) (start stop : Nat) : Except Stop (List α) :=
  if start ≤ stop ∧ stop ≤ elements.length then .ok ((elements.drop start).take (stop - start))
  else .error .outside

/-- The elements of a range, as a slice. -/
def range (elements : List α) (start length : Nat) : Except Stop (List α) := do
  let stop ← add start length
  slice elements start stop

/-- The elements that a window shows. -/
def contents (window : Window) : Except Stop (List Value) :=
  range window.backing.elements window.offset window.length

def readAny : Store → Nat → Except Stop Value
  | .empty, _ => .ok .nil
  | .ints elements, index => (element elements index).map .int
  | .longs elements, index => (element elements index).map .long
  | .doubles elements, index => (element elements index).map .float
  | .boxed elements, index => element elements index
  | .shared window, index => do element (← contents window) index

def copyAny (store : Store) (start length : Nat) : Except Stop (List Value) := do
  let stop ← add start length
  (List.range' start (stop - start)).mapM (readAny store)

def read : Access → Store → Nat → Except Stop Value
  | .direct .ints, .ints elements, index => (element elements index).map .int
  | .direct .longs, .longs elements, index => (element elements index).map .long
  | .direct .doubles, .doubles elements, index => (element elements index).map .float
  | .direct .boxed, .boxed elements, index => element elements index
  | .direct .shared, .shared window, index => do element (← contents window) index
  | _, store, index => readAny store index

def copy : Access → Store → Nat → Nat → Except Stop (List Value)
  | .direct .empty, .empty, _, _ => .ok []
  | .direct .ints, .ints elements, start, length =>
      (range elements start length).map (·.map .int)
  | .direct .longs, .longs elements, start, length =>
      (range elements start length).map (·.map .long)
  | .direct .doubles, .doubles elements, start, length =>
      (range elements start length).map (·.map .float)
  | .direct .boxed, .boxed elements, start, length => range elements start length
  | .direct .shared, .shared window, start, length => do
      range (← contents window) start length
  | _, store, start, length => copyAny store start length

/-- Refuse a range whose end overflows or lies beyond a size. -/
def checkEnd (start length size : Nat) : Except Fault.Storage Unit :=
  match Sequence.checkedAdd? start length with
  | some stop => if stop ≤ size then .ok () else .error (.outOfRange start length size)
  | none => .error (.outOfRange start length size)

def checkRange (s : Sequence) (start length : Nat) : Except Stop Unit :=
  (checkEnd start length s.size).mapError .refused

/-- A window, if it lies within the backing list. -/
def window (backing : Backing) (offset length : Nat) : Except Stop Window := do
  (checkEnd offset length backing.elements.length).mapError .refused
  return ⟨backing, offset, length⟩

def sharedWindow (s : Sequence) (identity : Identity) : Except Stop Window :=
  match s.store with
  | .shared window => .ok window
  | store => do
      let elements ← (List.range' 0 s.size).mapM (readAny store)
      window ⟨identity, elements⟩ 0 s.size

def share (s : Sequence) (start length : Nat) (identity : Identity) :
    Except Stop (Sequence × Sequence) := do
  checkRange s start length
  let whole ← sharedWindow s identity
  let offset ← add whole.offset start
  let part ← window whole.backing offset length
  return (⟨.shared part, length⟩, ⟨.shared whole, s.size⟩)

def copyRange (site : SequenceSite) (s : Sequence) (start length : Nat) :
    Except Stop (List Value) := do
  checkRange s start length
  copy (site.resolve s).1 s.store start length

def copyAll (site : SequenceSite) (s : Sequence) : Except Stop (List Value) :=
  copy (site.resolve s).1 s.store 0 s.size

def unsplat (site : SequenceSite) : List Sequence → Except Stop (List Value)
  | [s] => copyAll site s
  | arguments => .error (.refused (.arityMismatch arguments.length 1))

def readAt (site : SequenceSite) (s : Sequence) (index : Nat) : Except Stop Value := do
  checkRange s index 1
  read (site.resolve s).1 s.store index

/-- An operation comes out on a machine as it should. It has the expected result or refuses
its arguments for the expected reason, and neither side reaches outside of a store. -/
structure Agrees (actual : Except Stop α) (expected : Except Fault.Storage α) : Prop where
  same : actual = expected.mapError .refused
  inside : ∀ start length capacity, expected ≠ .error (.outsideStore start length capacity)

theorem agrees_of_ok {actual : Except Stop α} {expected : Except Fault.Storage α} {a : α}
    (same : actual = .ok a) (same' : expected = .ok a) : Agrees actual expected := by
  subst same same'
  exact ⟨rfl, nofun⟩

theorem agrees_of_outOfRange {actual : Except Stop α} {expected : Except Fault.Storage α}
    {start length size : Nat} (same : actual = .error (.refused (.outOfRange start length size)))
    (same' : expected = .error (.outOfRange start length size)) : Agrees actual expected := by
  subst same same'
  exact ⟨rfl, nofun⟩

theorem add_eq {m n : Nat} (fits : m + n < UInt64.size) : add m n = .ok (m + n) :=
  if_pos fits

variable {start length : Nat}

theorem range_eq {elements : List α} (short : elements.length < UInt64.size)
    (inside : start + length ≤ elements.length) :
    range elements start length = .ok ((elements.drop start).take length) := by
  have sum : start + length < UInt64.size := by omega
  have ordered : start ≤ start + length ∧ start + length ≤ elements.length :=
    ⟨Nat.le_add_right start length, inside⟩
  rw [range, add_eq sum]
  show slice elements start (start + length) = _
  rw [slice, if_pos ordered, Nat.add_sub_cancel_left]

theorem range_map (elements : List α) (box : α → Value)
    (short : (elements.map box).length < UInt64.size)
    (inside : start + length ≤ (elements.map box).length) :
    (range elements start length).map (·.map box) =
      .ok (((elements.map box).drop start).take length) := by
  rw [List.length_map] at short inside
  rw [range_eq short inside, ← List.map_drop, ← List.map_take]
  rfl

theorem contents_eq {window : Window} (fits : window.Fits)
    (short : window.backing.elements.length < UInt64.size) :
    contents window = .ok window.contents :=
  range_eq short fits

theorem element_eq {elements : List α} {index : Nat} {a : α} (there : elements[index]? = some a) :
    element elements index = .ok a := by
  rw [element, there]

theorem element_map (elements : List α) (box : α → Value) {index : Nat} {v : Value}
    (there : (elements.map box)[index]? = some v) :
    (element elements index).map box = .ok v := by
  rw [List.getElem?_map, Option.map_eq_some_iff] at there
  obtain ⟨a, there, rfl⟩ := there
  rw [element_eq there]
  rfl

section Store

variable {store : Store} (fits : store.Fits) (addressable : store.Addressable)

include fits addressable

theorem readAny_eq {index : Nat} {v : Value} (there : store.contents[index]? = some v) :
    readAny store index = .ok v := by
  cases store with
  | empty => simp [Store.contents] at there
  | ints elements => exact element_map elements Value.int there
  | longs elements => exact element_map elements Value.long there
  | doubles elements => exact element_map elements Value.float there
  | boxed elements => exact element_eq there
  | shared window =>
      rw [readAny, contents_eq fits addressable]
      exact element_eq there

theorem read_eq (access : Access) {index : Nat} {v : Value}
    (there : store.contents[index]? = some v) : read access store index = .ok v := by
  have generic := readAny_eq fits addressable there
  cases access with
  | generic => exact generic
  | direct kind => cases kind <;> cases store <;> exact generic

theorem mapM_readAny (inside : start + length ≤ store.contents.length) :
    (List.range' start length).mapM (readAny store) =
      .ok ((store.contents.drop start).take length) :=
  mapM_range' (fun _ _ => readAny_eq fits addressable) inside

theorem copyAny_eq (inside : start + length ≤ store.contents.length) :
    copyAny store start length = .ok ((store.contents.drop start).take length) := by
  have short := Store.length_contents_lt fits addressable
  have sum : start + length < UInt64.size := by omega
  rw [copyAny, add_eq sum]
  show (List.range' start (start + length - start)).mapM (readAny store) = _
  rw [Nat.add_sub_cancel_left]
  exact mapM_readAny fits addressable inside

/-- Every access copies a range without a stop, whatever the kind of the store. -/
theorem copy_eq (access : Access) (inside : start + length ≤ store.contents.length) :
    copy access store start length = .ok ((store.contents.drop start).take length) := by
  have generic := copyAny_eq fits addressable inside
  have short := Store.length_contents_lt fits addressable
  cases access with
  | generic => exact generic
  | direct kind =>
      cases kind with
      | empty =>
          cases store with
          | empty => simp [copy, Store.contents]
          | _ => exact generic
      | ints =>
          cases store with
          | ints elements => exact range_map elements Value.int short inside
          | _ => exact generic
      | longs =>
          cases store with
          | longs elements => exact range_map elements Value.long short inside
          | _ => exact generic
      | doubles =>
          cases store with
          | doubles elements => exact range_map elements Value.float short inside
          | _ => exact generic
      | boxed =>
          cases store with
          | boxed elements => exact range_eq short inside
          | _ => exact generic
      | shared =>
          cases store with
          | shared window =>
              rw [copy, contents_eq fits addressable]
              exact range_eq short inside
          | _ => exact generic

end Store

/-- A sum that overflows is beyond every size, so the check may be made in 64 bits. -/
theorem checkEnd_eq {size : Nat} (short : size < UInt64.size) (start length : Nat) :
    checkEnd start length size =
      if start + length ≤ size then .ok () else .error (.outOfRange start length size) :=
  -- The check reads the size of a sequence and nothing else of it.
  (Sequence.checkRange_eq_checked ⟨.empty, size⟩ short start length).symm

theorem window_eq {backing : Backing} {offset length : Nat}
    (short : backing.elements.length < UInt64.size)
    (inside : offset + length ≤ backing.elements.length) :
    window backing offset length = .ok ⟨backing, offset, length⟩ := by
  rw [window, checkEnd_eq short, if_pos inside]
  rfl

section Sequence

variable {s : Sequence} (inBounds : s.InBounds)

include inBounds

theorem checkRange_eq (start length : Nat) :
    checkRange s start length = (s.checkRange start length).mapError .refused := by
  rw [checkRange, checkEnd_eq (inBounds.size_lt)]
  rfl

theorem checkRange_of_inside (inside : start + length ≤ s.size) :
    checkRange s start length = .ok () := by
  rw [checkRange_eq inBounds, Sequence.checkRange_of_inside inside]
  rfl

theorem checkRange_of_outside (outside : ¬ start + length ≤ s.size) :
    checkRange s start length = .error (.refused (.outOfRange start length s.size)) := by
  rw [checkRange_eq inBounds, Sequence.checkRange_of_outside outside]
  rfl

theorem sharedWindow_of_unshared (unshared : s.window? = none) (identity : Identity) :
    sharedWindow s identity = .ok ⟨⟨identity, s.toList⟩, 0, s.size⟩ := by
  have unfolded : sharedWindow s identity = (do
      let elements ← (List.range' 0 s.size).mapM (readAny s.store)
      window ⟨identity, elements⟩ 0 s.size) := by
    obtain ⟨store, size⟩ := s
    cases store with
    | shared window => cases unshared
    | _ => rfl
  have length := inBounds.length_toList
  have short := inBounds.size_lt
  have slots : 0 + s.size ≤ s.store.contents.length := by
    have bounded := inBounds.size_le
    omega
  have copied : (List.range' 0 s.size).mapM (readAny s.store) = .ok s.toList :=
    mapM_readAny inBounds.fits inBounds.addressable slots
  rw [unfolded, copied]
  apply window_eq
  · show s.toList.length < UInt64.size
    omega
  · show 0 + s.size ≤ s.toList.length
    omega

theorem sharedWindow_eq (identity : Identity) :
    sharedWindow s identity = .ok (s.whole identity) := by
  cases shared : s.window? with
  | some window =>
      rw [Sequence.whole_of_shared shared]
      obtain ⟨store, size⟩ := s
      cases store <;> cases shared
      rfl
  | none => rw [sharedWindow_of_unshared inBounds shared, Sequence.whole_of_unshared shared]

/-- Once the range is within the size, both windows of a share are made and no sum
overflows. -/
theorem share_of_inside (inside : start + length ≤ s.size) (identity : Identity) :
    share s start length identity =
      .ok (⟨.shared ((s.whole identity).part start length), length⟩,
        ⟨.shared (s.whole identity), s.size⟩) := by
  have short : (s.whole identity).backing.elements.length < UInt64.size :=
    (inBounds.whole identity).addressable
  have behind : (s.whole identity).offset + start + length ≤
      (s.whole identity).backing.elements.length := (inBounds.part inside identity).fits
  have made : window (s.whole identity).backing ((s.whole identity).offset + start) length =
      .ok ((s.whole identity).part start length) := window_eq short behind
  rw [share, checkRange_of_inside inBounds inside, sharedWindow_eq inBounds]
  show (add (s.whole identity).offset start >>= fun offset =>
    window (s.whole identity).backing offset length >>= _) = _
  rw [add_eq (by omega)]
  show (window (s.whole identity).backing ((s.whole identity).offset + start) length >>= _) = _
  rw [made]
  rfl

theorem share_agrees (start length : Nat) (identity : Identity) :
    Agrees (share s start length identity) (s.share start length identity) := by
  by_cases inside : start + length ≤ s.size
  · exact agrees_of_ok (share_of_inside inBounds inside identity)
      (Sequence.share_of_inside inBounds.toWellFormed inside identity)
  · apply agrees_of_outOfRange
    · rw [share, checkRange_of_outside inBounds inside]
      rfl
    · exact Sequence.share_of_outside inside identity

theorem copyRange_agrees (site : SequenceSite) (start length : Nat) :
    Agrees (copyRange site s start length) (site.copyRange s start length).1 := by
  by_cases inside : start + length ≤ s.size
  · have slots := Nat.le_trans inside inBounds.size_le
    apply agrees_of_ok
    · rw [copyRange, checkRange_of_inside inBounds inside]
      exact copy_eq inBounds.fits inBounds.addressable _ slots
    · rw [SequenceSite.copyRange, Sequence.checkRange_of_inside inside]
      exact Access.copy_eq _ slots
  · apply agrees_of_outOfRange
    · rw [copyRange, checkRange_of_outside inBounds inside]
      rfl
    · rw [SequenceSite.copyRange, Sequence.checkRange_of_outside inside]

theorem copyAll_agrees (site : SequenceSite) :
    Agrees (copyAll site s) (site.copyAll s).1 := by
  have slots : 0 + s.size ≤ s.store.contents.length := by
    have bounded := inBounds.size_le
    omega
  apply agrees_of_ok
  · exact copy_eq inBounds.fits inBounds.addressable _ slots
  · exact Access.copy_eq _ slots

theorem readAt_agrees (site : SequenceSite) (index : Nat) :
    Agrees (readAt site s index) (site.read s index).1 := by
  by_cases inside : index + 1 ≤ s.size
  · have bound : index < s.store.contents.length := Nat.le_trans inside inBounds.size_le
    have there := List.getElem?_eq_getElem bound
    apply agrees_of_ok
    · rw [readAt, checkRange_of_inside inBounds inside]
      exact read_eq inBounds.fits inBounds.addressable _ there
    · rw [SequenceSite.read, Sequence.checkRange_of_inside inside]
      exact Access.read_eq _ there
  · apply agrees_of_outOfRange
    · rw [readAt, checkRange_of_outside inBounds inside]
      rfl
    · rw [SequenceSite.read, Sequence.checkRange_of_outside inside]

omit inBounds in
theorem unsplat_agrees (site : SequenceSite) {arguments : List Sequence}
    (inBounds : ∀ s ∈ arguments, s.InBounds) :
    Agrees (unsplat site arguments) (site.unsplat arguments).1 := by
  match arguments with
  | [] => exact ⟨rfl, nofun⟩
  | [s] => exact copyAll_agrees (inBounds s (List.mem_singleton_self s)) site
  | _ :: _ :: _ => exact ⟨rfl, nofun⟩

end Sequence

end Words

end AdaptiveDispatch
