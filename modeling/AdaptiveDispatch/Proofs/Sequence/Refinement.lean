import AdaptiveDispatch.Proofs.Sequence.Contents
import Mathlib.Logic.Function.Basic

/-!
# Sequences in use are lists in use

Sequences are made, cloned, shared and read through sites in any order. `Registers` holds
any number of both, and `Lists` holds a plain list for each sequence. The same requests
are put to both, and get the same answers.

A share changes the store of its source, and the windows it makes may be shared in turn.
None of this shows in the lists. Nor does anything that a site remembers: the lists have
no sites, so an answer cannot depend on one.
-/

namespace AdaptiveDispatch

/-- What can be asked of sequences and sites. Both are named by numbers. Only stores that
fit can be wrapped, and no others can be made. -/
inductive Request where
  | ofValues (target : Nat) (values : List Value)
  | wrap (target : Nat) (store : { store : Store // store.Fits }) (size : Nat)
  | clone (target source : Nat)
  | share (target source start length : Nat) (identity : Identity)
  | checkRange (source start length : Nat)
  | resolve (site source : Nat)
  | copyRange (site source start length : Nat)
  | copyAll (site source : Nat)
  | unsplat (site : Nat) (sources : List Nat)
  | read (site source index : Nat)

inductive Answer where
  | done
  | elements (values : List Value)
  | element (v : Value)
  | refused (fault : Fault.Storage)

namespace Answer

/-- The answer for an operation that may fail. -/
def of {α : Type} (answer : α → Answer) : Except Fault.Storage α → Answer
  | .ok a => answer a
  | .error fault => .refused fault

end Answer

/-- The answers to some requests that are made one after the other, and the state they
lead to. -/
def Request.run {σ : Type} (step : σ → Request → Answer × σ) (state : σ) :
    List Request → List Answer × σ
  | [] => ([], state)
  | request :: requests =>
      let (answer, next) := step state request
      let (answers, last) := run step next requests
      (answer :: answers, last)

/-- A plain list in place of each sequence. -/
abbrev Lists := Nat → Elements

namespace Lists

/-- Keep a list, if there is one. -/
def put (lists : Lists) (target : Nat) : Except Fault.Storage Elements → Answer × Lists
  | .ok elements => (.done, Function.update lists target elements)
  | .error fault => (.refused fault, lists)

/-- What a request does to plain lists. -/
def step (lists : Lists) : Request → Answer × Lists
  | .ofValues target values => lists.put target (.ok (.ofValues values))
  | .wrap target store size => lists.put target (Elements.first store.val.contents size)
  | .clone target source => lists.put target (.ok (lists source))
  | .share target source start length _ =>
      lists.put target (Elements.range (lists source) start length)
  | .checkRange source start length =>
      (.of (fun _ => .done) (Elements.checkRange (lists source) start length), lists)
  | .resolve _ _ => (.done, lists)
  | .copyRange _ source start length =>
      (.of .elements (Elements.range (lists source) start length), lists)
  | .copyAll _ source => (.of .elements (.ok (lists source)), lists)
  | .unsplat _ sources => (.of .elements (Elements.only (sources.map lists)), lists)
  | .read _ source index => (.of .element (Elements.element (lists source) index), lists)

end Lists

/-- Sequences and sites. -/
structure Registers where
  sequences : Nat → Sequence
  sites : Nat → SequenceSite

namespace Registers

def fill (registers : Registers) (target : Nat) (s : Sequence) : Registers :=
  { registers with sequences := Function.update registers.sequences target s }

/-- Keep a sequence, if there is one. -/
def put (registers : Registers) (target : Nat) :
    Except Fault.Storage Sequence → Answer × Registers
  | .ok s => (.done, registers.fill target s)
  | .error fault => (.refused fault, registers)

/-- Keep a window and the sequence that it was made from, if there are such. -/
def putShared (registers : Registers) (target source : Nat) :
    Except Fault.Storage (Sequence × Sequence) → Answer × Registers
  | .ok (part, whole) => (.done, (registers.fill source whole).fill target part)
  | .error fault => (.refused fault, registers)

/-- Use a site, and answer with its result. -/
def use {α : Type} (registers : Registers) (site : Nat) (answer : α → Answer)
    (operation : SequenceSite → Except Fault.Storage α × SequenceSite) : Answer × Registers :=
  let (result, next) := operation (registers.sites site)
  (.of answer result, { registers with sites := Function.update registers.sites site next })

/-- What a request does to sequences and sites. -/
def step (registers : Registers) : Request → Answer × Registers
  | .ofValues target values => registers.put target (.ok (.ofValues values))
  | .wrap target store size => registers.put target (Sequence.ofStore store.val size)
  | .clone target source => registers.put target (.ok (registers.sequences source))
  | .share target source start length identity =>
      registers.putShared target source
        ((registers.sequences source).share start length identity)
  | .checkRange source start length =>
      (.of (fun _ => .done) ((registers.sequences source).checkRange start length), registers)
  | .resolve site source =>
      registers.use site (fun _ => .done) fun site =>
        let (access, site) := site.resolve (registers.sequences source)
        (.ok access, site)
  | .copyRange site source start length =>
      registers.use site .elements (·.copyRange (registers.sequences source) start length)
  | .copyAll site source => registers.use site .elements (·.copyAll (registers.sequences source))
  | .unsplat site sources =>
      registers.use site .elements (·.unsplat (sources.map registers.sequences))
  | .read site source index =>
      registers.use site .element (·.read (registers.sequences source) index)

/-- The lists that the sequences stand for. -/
def view (registers : Registers) : Lists :=
  Sequence.toList ∘ registers.sequences

def WellFormed (registers : Registers) : Prop :=
  ∀ target, (registers.sequences target).WellFormed

variable {registers : Registers}

@[simp] theorem view_fill (registers : Registers) (target : Nat) (s : Sequence) :
    (registers.fill target s).view = Function.update registers.view target s.toList :=
  Function.comp_update Sequence.toList registers.sequences target s

theorem WellFormed.fill {s : Sequence} (wf : registers.WellFormed) (target : Nat)
    (wf' : s.WellFormed) : (registers.fill target s).WellFormed := by
  intro other
  show (Function.update registers.sequences target s other).WellFormed
  by_cases same : other = target
  · rw [same, Function.update_self]
    exact wf'
  · rw [Function.update_of_ne same]
    exact wf other

/-- An answer and registers that agree with an answer and lists. -/
structure Refines (result : Answer × Registers) (expected : Answer × Lists) : Prop where
  answer : result.1 = expected.1
  view : result.2.view = expected.2
  wellFormed : result.2.WellFormed

theorem refines_put {result : Except Fault.Storage Sequence} (wf : registers.WellFormed)
    (target : Nat) (made : ∀ s, result = .ok s → s.WellFormed) :
    Refines (registers.put target result)
      (registers.view.put target (result.map Sequence.toList)) := by
  cases result with
  | error fault => exact ⟨rfl, rfl, wf⟩
  | ok s => exact ⟨rfl, view_fill registers target s, wf.fill target (made s rfl)⟩

/-- A source that keeps its elements shows no trace of having been shared. -/
theorem refines_putShared {part whole : Sequence} (wf : registers.WellFormed)
    (target source : Nat) (wf_part : part.WellFormed) (wf_whole : whole.WellFormed)
    (kept : whole.toList = registers.view source) :
    Refines (registers.putShared target source (.ok (part, whole)))
      (registers.view.put target (.ok part.toList)) := by
  refine ⟨rfl, ?_, (wf.fill source wf_whole).fill target wf_part⟩
  show ((registers.fill source whole).fill target part).view =
    Function.update registers.view target part.toList
  -- The source is filled with other slots but the same elements, so its fill is undone.
  rw [view_fill, view_fill, kept, Function.update_eq_self]

/-- The use of a site changes no sequence, so that only its result matters. -/
theorem refines_use {α : Type} {result : Except Fault.Storage α} (wf : registers.WellFormed)
    (site : Nat) (answer : α → Answer)
    (operation : SequenceSite → Except Fault.Storage α × SequenceSite)
    (same : (operation (registers.sites site)).1 = result) :
    Refines (registers.use site answer operation) (.of answer result, registers.view) where
  answer := congrArg (Answer.of answer) same
  view := rfl
  wellFormed := wf

/-- A request does to registers what it does to their lists. -/
theorem step_refines (wf : registers.WellFormed) (request : Request) :
    Refines (registers.step request) (registers.view.step request) := by
  cases request with
  | ofValues target values =>
      have wf' := Sequence.wellFormed_ofValues values
      refine ⟨rfl, ?_, wf.fill target wf'⟩
      show (registers.fill target _).view = Function.update registers.view target _
      rw [view_fill, Sequence.toList_ofValues]
  | wrap target store size =>
      have made : ∀ s, Sequence.ofStore store.val size = .ok s → s.WellFormed := by
        intro s made
        exact Sequence.wellFormed_of_ofStore store.property made
      have kept := refines_put wf target made
      rw [Sequence.ofStore_eq store.property size] at kept
      exact kept
  | clone target source =>
      exact ⟨rfl, view_fill registers target _, wf.fill target (wf source)⟩
  | share target source start length identity =>
      show Refines (registers.putShared target source _)
        (registers.view.put target (Elements.range (registers.view source) start length))
      have length_view : (registers.view source).length = (registers.sequences source).size :=
        (wf source).length_toList
      rw [Elements.range, length_view]
      by_cases inside : start + length ≤ (registers.sequences source).size
      · obtain ⟨wf_whole, kept⟩ := (wf source).whole identity
        obtain ⟨wf_part, elements⟩ := (wf source).part inside identity
        rw [Sequence.share_of_inside (wf source) inside, if_pos inside]
        show Refines _ (registers.view.put target
          (.ok (((registers.sequences source).toList.drop start).take length)))
        rw [← elements]
        exact refines_putShared wf target source wf_part wf_whole kept
      · rw [Sequence.share_of_outside inside, if_neg inside]
        exact ⟨rfl, rfl, wf⟩
  | checkRange source start length =>
      have same := Sequence.checkRange_eq (wf source) start length
      exact ⟨congrArg (Answer.of _) same, rfl, wf⟩
  | resolve site source => exact ⟨rfl, rfl, wf⟩
  | copyRange site source start length =>
      have same := SequenceSite.copyRange_eq (registers.sites site) (wf source) start length
      exact refines_use wf site .elements (·.copyRange _ start length) same
  | copyAll site source =>
      have same := SequenceSite.copyAll_eq (registers.sites site) (wf source)
      exact refines_use wf site .elements (·.copyAll _) same
  | unsplat site sources =>
      have all : ∀ s ∈ sources.map registers.sequences, s.WellFormed := by
        intro s member
        obtain ⟨source, _, rfl⟩ := List.mem_map.mp member
        exact wf source
      have same := SequenceSite.unsplat_eq (registers.sites site) all
      rw [List.map_map] at same
      exact refines_use wf site .elements (·.unsplat _) same
  | read site source index =>
      have same := SequenceSite.read_eq (registers.sites site) (wf source) index
      exact refines_use wf site .element (·.read _ index) same

/-- Requests in any order get the answers that plain lists give, whatever the sites were
used for before, and leave sequences that stand for the lists that the requests leave. -/
theorem run_refines (wf : registers.WellFormed) (requests : List Request) :
    (Request.run step registers requests).1 =
        (Request.run Lists.step registers.view requests).1 ∧
      (Request.run step registers requests).2.view =
        (Request.run Lists.step registers.view requests).2 ∧
      (Request.run step registers requests).2.WellFormed := by
  induction requests generalizing registers with
  | nil => exact ⟨rfl, rfl, wf⟩
  | cons request requests ih =>
      have first := step_refines wf request
      obtain ⟨answers, view, kept⟩ := ih first.wellFormed
      rw [first.view] at answers view
      exact ⟨congrArg₂ List.cons first.answer answers, view, kept⟩

theorem run_refines_windows :
    let table := ⟨Access.rules, RuleTable.indexOf Access.rules, .generic⟩
    let registers : Registers := ⟨fun _ => .empty, fun limit => .new ⟨0⟩ table limit⟩
    registers.WellFormed ∧
      (Request.run step registers
        [.wrap 0 ⟨.ints [1, 2, 3, 4], trivial⟩ 3, .share 1 0 1 2 7, .share 2 1 1 1 8,
          .copyAll 0 2, .copyAll 4 0, .read 4 0 3, .unsplat 1 [0, 1]]).1 =
        [.done, .done, .done, .elements [.int 3], .elements [.int 1, .int 2, .int 3],
          .refused (.outOfRange 3 1 3), .refused (.arityMismatch 2 1)] := by
  intro table registers
  have wf : registers.WellFormed := fun _ => Sequence.wellFormed_empty
  refine ⟨wf, ?_⟩
  rw [(run_refines wf _).1]
  rfl

end Registers

end AdaptiveDispatch
