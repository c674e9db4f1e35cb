import AdaptiveDispatch.Proofs.Sequence.Words
import Mathlib.Algebra.GroupWithZero.Nat

/-!
# Windows of windows

A window can be shared like every other sequence, and so can the window that comes of it.
Each share of such a chain adds its start to the offset of the window before, so the last
window could have been taken at once: from the first sequence, at the sum of the starts. No
share of the chain leads out of the window before it, and the first one not out of the
elements of the sequence, so none of them reaches a spare slot.
-/

namespace AdaptiveDispatch

/-- A share to be made. The identity is for a new backing list, if one is needed. -/
structure Cut where
  start : Nat
  length : Nat
  identity : Identity

namespace Window

/-- The sequence of all elements of a window. -/
def sequence (window : Window) : Sequence :=
  ⟨.shared window, window.length⟩

/-- A window shows some of the slots that another one shows. -/
structure Inside (inner outer : Window) : Prop where
  backing : inner.backing = outer.backing
  starts : outer.offset ≤ inner.offset
  ends : inner.offset + inner.length ≤ outer.offset + outer.length

theorem Inside.refl (window : Window) : window.Inside window :=
  ⟨rfl, Nat.le_refl _, Nat.le_refl _⟩

theorem Inside.trans {inner middle outer : Window} (inside : inner.Inside middle)
    (outside : middle.Inside outer) : inner.Inside outer where
  backing := inside.backing.trans outside.backing
  starts := Nat.le_trans outside.starts inside.starts
  ends := Nat.le_trans inside.ends outside.ends

theorem inside_part (window : Window) {start length : Nat}
    (inside : start + length ≤ window.length) : (window.part start length).Inside window where
  backing := rfl
  starts := Nat.le_add_right window.offset start
  ends := by
    show window.offset + start + length ≤ window.offset + window.length
    omega

/-- What lies inside of a window is the window of one of its ranges. -/
theorem Inside.eq_part {inner outer : Window} (inside : inner.Inside outer) :
    ∃ start, start + inner.length ≤ outer.length ∧ inner = outer.part start inner.length := by
  have starts := inside.starts
  have ends := inside.ends
  refine ⟨inner.offset - outer.offset, by omega, ?_⟩
  rw [part, Nat.add_sub_cancel' starts, ← inside.backing]

/-- The windows that some cuts make, each of them from the window before. -/
inductive Chain : Window → List Cut → List Window → Prop
  | nil (window : Window) : Chain window [] []
  | cons {window : Window} {cut : Cut} {cuts : List Cut} {windows : List Window}
      (inside : cut.start + cut.length ≤ window.length)
      (rest : Chain (window.part cut.start cut.length) cuts windows) :
      Chain window (cut :: cuts) (window.part cut.start cut.length :: windows)

variable {window : Window} {cuts : List Cut} {windows : List Window}

/-- The last window of a chain starts at the sum of the starts. -/
theorem Chain.last_eq (chain : window.Chain cuts windows) :
    windows.getLastD window =
      window.part (cuts.map Cut.start).sum ((cuts.map Cut.length).getLastD window.length) := by
  induction chain with
  | nil window => rfl
  | cons inside rest ih =>
      rw [List.getLastD_cons, ih, part_part, List.map_cons, List.map_cons, List.sum_cons,
        List.getLastD_cons]
      rfl

/-- A chain from the window of a range ends with the window of a range as well. -/
theorem Chain.last_sequence {start length : Nat}
    (chain : (window.part start length).Chain cuts windows) :
    (windows.map sequence).getLastD (window.part start length).sequence =
      (window.part (start + (cuts.map Cut.start).sum)
        ((cuts.map Cut.length).getLastD length)).sequence := by
  rw [List.getLastD_map, chain.last_eq, part_part]
  rfl

theorem Chain.last_le (chain : window.Chain cuts windows) :
    (cuts.map Cut.start).sum + (cuts.map Cut.length).getLastD window.length ≤ window.length := by
  induction chain with
  | nil window => exact Nat.le_of_eq (Nat.zero_add window.length)
  | @cons window cut cuts windows inside rest ih =>
      change _ + (cuts.map Cut.length).getLastD cut.length ≤ cut.length at ih
      rw [List.map_cons, List.map_cons, List.sum_cons, List.getLastD_cons]
      omega

theorem Chain.inside (chain : window.Chain cuts windows) :
    ∀ inner ∈ windows, inner.Inside window := by
  induction chain with
  | nil window => nofun
  | @cons window cut _ _ inside rest ih =>
      have first := window.inside_part inside
      intro inner member
      rcases List.mem_cons.mp member with rfl | member
      · exact first
      · exact (ih inner member).trans first

theorem Chain.pairwise_inside (chain : window.Chain cuts windows) :
    windows.Pairwise fun outer inner => inner.Inside outer := by
  induction chain with
  | nil window => exact List.Pairwise.nil
  | cons inside rest ih => exact List.Pairwise.cons rest.inside ih

end Window

namespace Sequence

variable {s part source : Sequence} {start length : Nat} {window : Window}

/-- The windows that a chain of shares makes. Each one is taken from the window before it,
and the first one from the sequence. -/
def chain (s : Sequence) : List Cut → Except Fault.Storage (List Sequence)
  | [] => .ok []
  | cut :: cuts => do
      let (part, _) ← s.share cut.start cut.length cut.identity
      let parts ← part.chain cuts
      return part :: parts

/-- Two sequences are windows, and one shows some of the slots that the other one shows. -/
def Inside (inner outer : Sequence) : Prop :=
  ∃ v w, inner.window? = some v ∧ outer.window? = some w ∧ v.Inside w

/-- What a share that succeeded has made. -/
theorem share_eq_ok {identity : Identity} (wf : s.WellFormed)
    (shared : s.share start length identity = .ok (part, source)) :
    start + length ≤ s.size ∧ part = ((s.whole identity).part start length).sequence ∧
      source = ⟨.shared (s.whole identity), s.size⟩ := by
  by_cases inside : start + length ≤ s.size
  · rw [share_of_inside wf inside] at shared
    cases shared
    exact ⟨inside, rfl, rfl⟩
  · rw [share_of_outside inside] at shared
    cases shared

/-- A chain that succeeds is a share that succeeds, and a chain from its window. -/
theorem exists_share_of_chain {cut : Cut} {cuts : List Cut} {parts : List Sequence}
    (chained : s.chain (cut :: cuts) = .ok parts) :
    ∃ part source rest, s.share cut.start cut.length cut.identity = .ok (part, source) ∧
      part.chain cuts = .ok rest ∧ parts = part :: rest := by
  rw [chain] at chained
  cases shared : s.share cut.start cut.length cut.identity with
  | error fault =>
      rw [shared] at chained
      cases chained
  | ok made =>
      obtain ⟨part, source⟩ := made
      rw [shared] at chained
      change (part.chain cuts >>= _) = _ at chained
      cases others : part.chain cuts with
      | error fault =>
          rw [others] at chained
          cases chained
      | ok rest =>
          rw [others] at chained
          cases chained
          exact ⟨part, source, rest, rfl, others, rfl⟩

/-- The shares of a chain that succeeds are cuts from window to window. -/
theorem exists_chain {cuts : List Cut} {parts : List Sequence} (fits : window.Fits)
    (chained : window.sequence.chain cuts = .ok parts) :
    ∃ windows, window.Chain cuts windows ∧ parts = windows.map Window.sequence := by
  induction cuts generalizing window parts with
  | nil =>
      cases chained
      exact ⟨[], .nil window, rfl⟩
  | cons cut cuts ih =>
      have wf : window.sequence.WellFormed := ⟨fits, Nat.le_refl window.length⟩
      obtain ⟨part, source, rest, shared, others, rfl⟩ := exists_share_of_chain chained
      obtain ⟨inside, rfl, _⟩ := share_eq_ok wf shared
      -- The window through which a window is shared is the window itself.
      obtain ⟨windows, chain, rfl⟩ := ih (fits.part inside) others
      exact ⟨_, .cons inside chain, rfl⟩

/-- What a window of a range shows does not depend on the backing list that is made for
it. -/
theorem contents_part_whole (wf : s.WellFormed) (inside : start + length ≤ s.size)
    (identity : Identity) :
    ((s.whole identity).part start length).contents = (s.toList.drop start).take length := by
  obtain ⟨wf_part, elements⟩ := wf.part inside identity
  have all : ((s.whole identity).part start length).contents.length ≤ length :=
    Nat.le_of_eq (Window.length_contents wf_part.fits)
  rw [← elements]
  exact (List.take_of_length_le all).symm

/-- Two shares of one range show the same elements, also if each of them makes a backing list
of its own. -/
theorem exists_share_alike (wf : s.WellFormed) (inside : start + length ≤ s.size)
    (one another : Identity) :
    ∃ part source, s.share start length one = .ok (part, source) ∧
      part.store.contents = ((s.whole another).part start length).contents ∧
      part.size = length ∧ part.store.capacity = length := by
  refine ⟨_, _, share_of_inside wf inside one, ?_, rfl, rfl⟩
  exact (contents_part_whole wf inside one).trans (contents_part_whole wf inside another).symm

/-- What lies inside of the window of a range shows elements of that range. -/
theorem contents_of_inside {inner : Window} {identity : Identity} (wf : s.WellFormed)
    (inside : start + length ≤ s.size)
    (nested : inner.Inside ((s.whole identity).part start length)) :
    ∃ skip, start ≤ skip ∧ skip + inner.length ≤ start + length ∧
      inner.contents = (s.toList.drop skip).take inner.length := by
  obtain ⟨more, ends, same⟩ := nested.eq_part
  change more + inner.length ≤ length at ends
  have within : start + more + inner.length ≤ s.size := by omega
  refine ⟨start + more, Nat.le_add_right start more, by omega, ?_⟩
  have shown := contents_part_whole wf within identity
  rw [← Window.part_part _ start length, ← same] at shown
  exact shown

/-- A chain of shares makes the same window as one share at the sum of the starts, which does
not overflow. It shows the same elements if that share is made beforehand, and it is the same
window of the same backing list if it is made afterwards. Each window of the chain lies inside
of all windows before it, and all of them show elements of the first range. -/
theorem chain_composes {first : Cut} {rest : List Cut} {parts : List Sequence}
    (inBounds : s.InBounds)
    (shared : s.share first.start first.length first.identity = .ok (part, source))
    (chained : part.chain rest = .ok parts) :
    let start := ((first :: rest).map Cut.start).sum
    let length := (rest.map Cut.length).getLastD first.length
    let last := parts.getLastD part
    start < UInt64.size ∧
    (∀ identity, ∃ direct after, s.share start length identity = .ok (direct, after) ∧
      direct.store.contents = last.store.contents ∧ direct.size = last.size ∧
      direct.store.capacity = last.store.capacity) ∧
    (∀ identity, source.share start length identity = .ok (last, source)) ∧
    (part :: parts).Pairwise (fun outer inner => inner.Inside outer) ∧
    first.start + first.length ≤ s.size ∧
    ∀ t ∈ part :: parts, ∃ skip, first.start ≤ skip ∧
      skip + t.size ≤ first.start + first.length ∧
      t.store.contents = (s.toList.drop skip).take t.size := by
  intro start length last
  have wf := inBounds.toWellFormed
  obtain ⟨inside, rfl, rfl⟩ := share_eq_ok wf shared
  obtain ⟨wf_part, _⟩ := wf.part inside first.identity
  obtain ⟨windows, chain, rfl⟩ := exists_chain wf_part.fits chained
  obtain ⟨wf_whole, _⟩ := wf.whole first.identity
  have bound : (rest.map Cut.start).sum + length ≤ first.length := chain.last_le
  have total : start = first.start + (rest.map Cut.start).sum := List.sum_cons
  have within : start + length ≤ s.size := by omega
  have last_eq : last = ((s.whole first.identity).part start length).sequence := by
    rw [total]
    exact chain.last_sequence
  have nested : ((s.whole first.identity).part first.start first.length :: windows).Pairwise
      fun outer inner => inner.Inside outer :=
    List.Pairwise.cons chain.inside chain.pairwise_inside
  refine ⟨?_, ?_, ?_, ?_, inside, ?_⟩
  · have short := inBounds.size_lt
    omega
  · intro identity
    rw [last_eq]
    exact exists_share_alike wf within identity first.identity
  · intro identity
    rw [last_eq]
    exact share_of_inside wf_whole within identity
  · rw [← List.map_cons, List.pairwise_map]
    exact nested.imp fun inside => ⟨_, _, rfl, rfl, inside⟩
  · rw [← List.map_cons]
    intro t member
    obtain ⟨inner, there, rfl⟩ := List.mem_map.mp member
    apply contents_of_inside wf inside
    rcases List.mem_cons.mp there with rfl | later
    · exact .refl _
    · exact chain.inside inner later

/-- Three shares in a row from a window that shows one slot more than the sequence has
elements. -/
theorem chain_composes_spare :
    let backing : Backing := ⟨7, [.nil, .int 1, .int 2, .int 3, .int 4, .int 5]⟩
    let s : Sequence := ⟨.shared ⟨backing, 1, 5⟩, 4⟩
    let part : Sequence := ⟨.shared ⟨backing, 2, 3⟩, 3⟩
    s.InBounds ∧ s.share 1 3 8 = .ok (part, s) ∧
      part.chain [⟨1, 2, 9⟩, ⟨1, 1, 10⟩] =
        .ok [⟨.shared ⟨backing, 3, 2⟩, 2⟩, ⟨.shared ⟨backing, 4, 1⟩, 1⟩] ∧
      s.share (1 + (1 + (1 + 0))) 1 11 = .ok (⟨.shared ⟨backing, 4, 1⟩, 1⟩, s) := by
  intro backing s part
  have inBounds : s.InBounds := ⟨⟨by decide, by decide⟩, show 6 < UInt64.size by decide⟩
  let first : Cut := ⟨1, 3, 8⟩
  have shared : s.share first.start first.length first.identity = .ok (part, s) := rfl
  have chained : part.chain [⟨1, 2, 9⟩, ⟨1, 1, 10⟩] =
      .ok [⟨.shared ⟨backing, 3, 2⟩, 2⟩, ⟨.shared ⟨backing, 4, 1⟩, 1⟩] := rfl
  obtain ⟨_, _, afterwards, _⟩ := chain_composes inBounds shared chained
  exact ⟨inBounds, shared, chained, afterwards 11⟩

end Sequence

end AdaptiveDispatch
