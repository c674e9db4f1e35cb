import AdaptiveDispatch.Proofs.Sequence.Contents
import Mathlib.Logic.Relation

/-!
# What a share leaves behind

A share changes the sequence that it is taken from: a store that belongs to it alone is
exchanged for a window over a new backing list. `shareInPlace` takes the steps of a share one
after the other and keeps the sequence as it is between them. The store is exchanged before
the window of the range is made, so a fault in the last step would come too late. There is
none: a share that is refused is refused by the first step.

The exchange happens once. A sequence that is shared keeps its store, and all windows that
are ever taken from it, or from its windows, look at the same backing list.
-/

namespace AdaptiveDispatch.Sequence

variable {s t part source : Sequence} {start length : Nat} {identity : Identity}

/-- The steps of a share: its result, and the sequence as the last step that was taken leaves
it. -/
def shareInPlace (s : Sequence) (start length : Nat) (identity : Identity) :
    Except Fault.Storage Sequence × Sequence :=
  match s.checkRange start length with
  | .error fault => (.error fault, s)
  | .ok () =>
      match s.sharedWindow identity with
      | .error fault => (.error fault, s)
      | .ok whole =>
          let source := ⟨.shared whole, s.size⟩
          -- From here on the store is exchanged, whatever comes of the window.
          match Window.ofRange whole.backing (whole.offset + start) length with
          | .error fault => (.error fault, source)
          | .ok part => (.ok ⟨.shared part, length⟩, source)

/-- The steps of a share amount to the share: it succeeds and leaves the sequence that it
returns, or it fails and leaves the sequence as it was. -/
theorem shareInPlace_eq (wf : s.WellFormed) (start length : Nat) (identity : Identity) :
    s.shareInPlace start length identity =
      match s.share start length identity with
      | .ok (part, source) => (.ok part, source)
      | .error fault => (.error fault, s) := by
  by_cases inside : start + length ≤ s.size
  · rw [share_of_inside wf inside, shareInPlace, checkRange_of_inside inside, sharedWindow_eq wf]
    simp only [ofRange_whole wf inside]
  · rw [share_of_outside inside, shareInPlace, checkRange_of_outside inside]

/-- Attempts to share lead from one sequence to others: to the window that is made, and to
what the attempt leaves of the sequence. -/
def Yields (s t : Sequence) : Prop :=
  ∃ start length identity, (s.shareInPlace start length identity).1 = .ok t ∨
    (s.shareInPlace start length identity).2 = t

/-- All steps from a shared sequence stay with its backing list, also where they fail. -/
theorem Yields.backing {window : Window} (yields : s.Yields t)
    (shared : s.window? = some window) :
    ∃ window', t.window? = some window' ∧ window'.backing = window.backing := by
  obtain ⟨start, length, identity, step⟩ := yields
  have kept : (⟨.shared window, s.size⟩ : Sequence).window? = some window := rfl
  rw [shareInPlace, sharedWindow_of_shared shared] at step
  cases accepted : s.checkRange start length with
  | error fault =>
      rw [accepted] at step
      obtain ⟨⟨⟩⟩ | rfl := step
      exact ⟨window, shared, rfl⟩
  | ok _ =>
      rw [accepted] at step
      by_cases fits : window.offset + start + length ≤ window.backing.elements.length
      · simp only [Window.ofRange_eq_ok fits, Except.ok.injEq] at step
        obtain rfl | rfl := step
        · exact ⟨_, rfl, rfl⟩
        · exact ⟨window, kept, rfl⟩
      · simp only [Window.ofRange, if_neg fits] at step
        obtain ⟨⟨⟩⟩ | rfl := step
        exact ⟨window, kept, rfl⟩

theorem backing_of_yields {window : Window} (shared : s.window? = some window)
    (yields : Relation.ReflTransGen Yields s t) :
    ∃ window', t.window? = some window' ∧ window'.backing = window.backing := by
  induction yields with
  | refl => exact ⟨window, shared, rfl⟩
  | tail _ step ih =>
      obtain ⟨between, found, same⟩ := ih
      obtain ⟨last, found', same'⟩ := step.backing found
      exact ⟨last, found', same'.trans same⟩

/-- What a share of a range does: the window that it makes and the sequence that it leaves
both look through one window at a backing list. -/
structure ShareEffect (s : Sequence) (start length : Nat) (identity : Identity)
    (part source : Sequence) (whole : Window) : Prop where
  source_store : source.store = .shared whole
  source_size : source.size = s.size
  /-- A store of its own is exchanged for a new backing list of just the elements. -/
  exchanged : s.store.kind ≠ .shared → whole = ⟨⟨identity, s.toList⟩, 0, s.size⟩
  /-- The new list is shared with no sequence that was there before it got its identity. -/
  apart : s.store.kind ≠ .shared → ∀ (other : Sequence) (window : Window),
    other.window? = some window → window.backing.identity ≠ identity →
      source.sharesBacking? other = some false
  kept : s.store.kind = .shared → source.store = s.store
  part_store : part.store = .shared ⟨whole.backing, whole.offset + start, length⟩
  part_size : part.size = length
  part_capacity : part.store.capacity = length
  /-- Whatever comes of the two by further shares has the same backing list. -/
  backing : ∀ t, Relation.ReflTransGen Yields source t ∨ Relation.ReflTransGen Yields part t →
    ∃ window, t.window? = some window ∧ window.backing = whole.backing

theorem window?_of_unshared (unshared : s.store.kind ≠ .shared) : s.window? = none := by
  obtain ⟨store, size⟩ := s
  cases store with
  | shared window => exact absurd rfl unshared
  | _ => rfl

theorem shareEffect (s : Sequence) (start length : Nat) (identity : Identity) :
    ShareEffect s start length identity ⟨.shared ((s.whole identity).part start length), length⟩
      ⟨.shared (s.whole identity), s.size⟩ (s.whole identity) where
  source_store := rfl
  source_size := rfl
  exchanged := by
    intro unshared
    exact whole_of_unshared (window?_of_unshared unshared) identity
  apart := by
    intro unshared other window found differs
    rw [whole_of_unshared (window?_of_unshared unshared), sharesBacking?, found]
    show some (identity == window.backing.identity) = some false
    rw [beq_eq_false_iff_ne.mpr (Ne.symm differs)]
  kept := by
    intro shared
    obtain ⟨store, size⟩ := s
    cases store <;> cases shared
    rfl
  part_store := rfl
  part_size := rfl
  part_capacity := rfl
  backing := by
    rintro t (yields | yields)
    · obtain ⟨window, found, same⟩ := backing_of_yields rfl yields
      exact ⟨window, found, same⟩
    · obtain ⟨window, found, same⟩ := backing_of_yields rfl yields
      exact ⟨window, found, same⟩

/-- A share is all or nothing. A range beyond the size is refused and leaves the sequence
alone. Any other range has the whole effect, and no step of the share fails. -/
theorem share_all_or_nothing (wf : s.WellFormed) (start length : Nat) (identity : Identity) :
    (s.size < start + length →
      s.share start length identity = .error (.outOfRange start length s.size) ∧
      s.shareInPlace start length identity = (.error (.outOfRange start length s.size), s)) ∧
    (start + length ≤ s.size → ∃ (part source : Sequence) (whole : Window),
      s.share start length identity = .ok (part, source) ∧
      s.shareInPlace start length identity = (.ok part, source) ∧
      ShareEffect s start length identity part source whole) := by
  constructor
  · intro beyond
    have refused := share_of_outside (Nat.not_le_of_lt beyond) identity
    refine ⟨refused, ?_⟩
    rw [shareInPlace_eq wf, refused]
  · intro inside
    have shared := share_of_inside wf inside identity
    refine ⟨_, _, _, shared, ?_, shareEffect s start length identity⟩
    rw [shareInPlace_eq wf, shared]

/-- Three integers in a store of four slots are shared, and then a part of their window with
another identity at hand. -/
theorem share_all_or_nothing_spare :
    let s : Sequence := ⟨.ints [1, 2, 3, 4], 3⟩
    s.WellFormed ∧ 1 + 2 ≤ s.size ∧ s.size < 2 + 2 ∧
      s.shareInPlace 2 2 7 = (.error (.outOfRange 2 2 3), s) ∧
      ∃ (part source : Sequence) (whole : Window), s.shareInPlace 1 2 7 = (.ok part, source) ∧
        whole.backing = ⟨7, [.int 1, .int 2, .int 3]⟩ ∧
        ∃ window, (part.shareInPlace 1 1 8).2.window? = some window ∧
          window.backing = whole.backing := by
  intro s
  have wf : s.WellFormed := ⟨trivial, by decide⟩
  obtain ⟨refused, _⟩ := share_all_or_nothing wf 2 2 7
  obtain ⟨_, taken⟩ := share_all_or_nothing wf 1 2 7
  obtain ⟨part, source, whole, _, made, effect⟩ := taken (by decide)
  have backing : whole.backing = ⟨7, [.int 1, .int 2, .int 3]⟩ := by
    rw [effect.exchanged (by decide)]
    rfl
  have later : part.Yields (part.shareInPlace 1 1 8).2 := ⟨1, 1, 8, .inr rfl⟩
  exact ⟨wf, by decide, by decide, (refused (by decide)).2, part, source, whole, made, backing,
    effect.backing _ (.inr (.single later))⟩

end AdaptiveDispatch.Sequence
