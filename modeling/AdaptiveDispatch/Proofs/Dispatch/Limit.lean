import AdaptiveDispatch.Proofs.Dispatch.Counts
import Mathlib.Data.List.Forall2

/-!
# The choice of a limit

A cache with a larger limit is the better one for every run. It holds what the smaller
cache holds, in the same places, and perhaps more behind. What the smaller cache installs
or finds, the larger one installs or finds at the same position.

`Trails` relates the two caches. One call with any shape keeps them in this relation, also
where the smaller one is full and the larger one goes on installing. Then the larger one has
the same answer, unless the smaller one falls back. So it has all the hits of the smaller one,
and falls back at no other calls.
-/

namespace AdaptiveDispatch

/-- Of two lists that are related entry by entry, the second has no fewer entries of a sort if
the relation carries the sort over. -/
theorem countP_le_of_forall₂ {α β : Type} {R : α → β → Prop} {p : α → Bool} {q : β → Bool}
    {l : List α} {l' : List β} (related : List.Forall₂ R l l')
    (carried : ∀ a b, R a b → p a = true → q b = true) : l.countP p ≤ l'.countP q := by
  induction related with
  | nil => exact Nat.le_refl 0
  | @cons a b rest rest' first _ ih =>
      rw [List.countP_cons, List.countP_cons]
      cases sort : p a with
      | false => exact Nat.le_trans ih (Nat.le_add_right _ _)
      | true =>
          rw [carried a b first sort]
          exact Nat.succ_le_succ ih

namespace InlineCache

variable {σ ι : Type} [DecidableEq σ]

/-- The entries of a cache are the first entries of one with a larger limit. -/
structure Trails (small large : InlineCache σ ι) : Prop where
  table : large.table = small.table
  limit : small.limit ≤ large.limit
  entries : small.entries = large.entries.take small.limit

/-- The second of two answers to a call is the first one again, unless that is the fallback. -/
def Repeats (answer better : Selection ι) : Prop :=
  answer.route ≠ .generic → better = answer

theorem Repeats.isCached {answer better : Selection ι} (repeats : Repeats answer better)
    (cached : answer.route.isCached = true) : better.route.isCached = true := by
  rw [repeats]
  · exact cached
  · intro generic
    rw [generic] at cached
    cases cached

theorem Repeats.isGeneric {answer better : Selection ι} (repeats : Repeats answer better)
    (generic : better.route.isGeneric = true) : answer.route.isGeneric = true := by
  by_cases specific : answer.route = .generic
  · rw [specific]
    rfl
  · rw [← repeats specific]
    exact generic

variable {small large : InlineCache σ ι} {shape : σ}

omit [DecidableEq σ] in
theorem Trails.entries_prefix (trails : small.Trails large) : small.entries <+: large.entries := by
  rw [trails.entries]
  exact List.take_prefix small.limit large.entries

omit [DecidableEq σ] in
/-- While the smaller cache has room, nothing was cut off. -/
theorem Trails.entries_eq (trails : small.Trails large)
    (room : small.entries.length < small.limit) : large.entries = small.entries := by
  have length := congrArg List.length trails.entries
  rw [List.length_take] at length
  rw [trails.entries, List.take_of_length_le]
  omega

variable [ShapeDomain σ]

/-- A shape that no rule accepts is not installed. -/
theorem Ruled.find?_eq_none {cache : InlineCache σ ι} (ruled : cache.Ruled)
    (unaccepted : cache.table.accepted shape = false) : cache.find? shape = none := by
  rw [Option.eq_none_iff_forall_ne_some]
  intro entry found
  obtain ⟨rule, accepts, _⟩ := ruled entry (mem_entries_of_find? found)
  rw [shape_of_find? found] at accepts
  rw [accepts.accepted] at unaccepted
  cases unaccepted

/-- Where the smaller cache falls back, anything the larger one does keeps it ahead. -/
theorem Trails.select_of_full (trails : small.Trails large) (valid : large.table.Valid)
    (full : small.limit ≤ small.entries.length) (shape : σ) :
    ({ small with saturated := true }.fallBack.2).Trails (large.select shape).2 := by
  obtain ⟨more, grown⟩ := entries_prefix_select valid shape
  have behind : small.limit ≤ large.entries.length :=
    Nat.le_trans full trails.entries_prefix.length_le
  constructor
  · exact (select_table large shape).trans trails.table
  · rw [select_limit]
    exact trails.limit
  · rw [← grown]
    show small.entries = List.take small.limit _
    rw [List.take_append_of_le_length behind]
    exact trails.entries

/-- A call keeps one cache trailing the other, and unless it falls back in the smaller one
both give the same answer. -/
theorem Trails.select (trails : small.Trails large) (valid : small.table.Valid)
    (ruled : large.Ruled) (shape : σ) :
    (small.select shape).2.Trails (large.select shape).2 ∧
      Repeats (small.select shape).1 (large.select shape).1 := by
  have table := trails.table
  have step := select_step valid shape
  generalize small.select shape = result at step ⊢
  cases step with
  | hit found =>
      have found' := find?_of_prefix found trails.entries_prefix
      rw [select_of_find?_eq_some found']
      exact ⟨⟨table, trails.limit, trails.entries⟩, fun _ => rfl⟩
  | unruled _ unaccepted =>
      have unruled := valid.ruleFor?_eq_none_iff.mpr unaccepted
      rw [← table] at unaccepted unruled
      rw [select_of_ruleFor?_eq_none (ruled.find?_eq_none unaccepted) unruled]
      exact ⟨⟨table, trails.limit, trails.entries⟩, fun specific => absurd rfl specific⟩
  | full _ _ full =>
      have valid' : large.table.Valid := by
        rw [table]
        exact valid
      exact ⟨trails.select_of_full valid' full shape, fun specific => absurd rfl specific⟩
  | @install rule unseen accepts room =>
      have same := trails.entries_eq room
      obtain ⟨position, ruled⟩ := valid.exists_ruleFor?_iff.mpr accepts
      have unseen' : large.find? shape = none := by
        rw [find?_eq_none_iff, shapes, same]
        exact unseen
      have ruled' : large.table.ruleFor? shape = some (position, rule) := by
        rw [table]
        exact ruled
      have room' : large.entries.length < large.limit := by
        rw [same]
        exact Nat.lt_of_lt_of_le room trails.limit
      rw [select_of_room unseen' ruled' room']
      constructor
      · refine ⟨table, trails.limit, ?_⟩
        have fits : (large.install shape rule).2.entries.length ≤ small.limit := by
          rw [install_entries, same, List.length_append, List.length_singleton]
          exact room
        show (small.install shape rule).2.entries = List.take small.limit _
        rw [List.take_of_length_le fits, install_entries, install_entries, same]
      · intro _
        rw [install, install, same]

/-- So does a run of calls. -/
theorem Trails.after (trails : small.Trails large) (valid : small.table.Valid)
    (ruled : large.Ruled) (run : List σ) : (small.after run).Trails (large.after run) := by
  induction run generalizing small large with
  | nil => exact trails
  | cons first run ih =>
      have valid' : large.table.Valid := by
        rw [trails.table]
        exact valid
      exact ih (trails.select valid ruled first).1 (valid_select valid first)
        (ruled.select valid' first)

/-- All through a run the larger cache repeats the answers of the smaller one, except where
that one falls back. -/
theorem Trails.answers (trails : small.Trails large) (valid : small.table.Valid)
    (ruled : large.Ruled) (run : List σ) :
    List.Forall₂ Repeats (small.answers run) (large.answers run) := by
  induction run generalizing small large with
  | nil => exact .nil
  | cons first run ih =>
      obtain ⟨trails', repeats⟩ := trails.select valid ruled first
      have valid' : large.table.Valid := by
        rw [trails.table]
        exact valid
      exact .cons repeats (ih trails' (valid_select valid first) (ruled.select valid' first))

omit [DecidableEq σ] [ShapeDomain σ] in
theorem trails_new (site site' : SiteId) (table : RuleTable σ ι) {limit larger : Nat}
    (le : limit ≤ larger) : (new site table limit).Trails (new site' table larger) :=
  ⟨rfl, le, List.take_nil.symm⟩

/-- The same run is made on two new caches, one of them with a larger limit. At every point
the smaller cache holds the first entries of the larger one, as many as its own limit
allows. Each of its answers with a cached or installed entry is also the answer of the larger
cache. So the larger cache has at least as many hits and at most as many generic calls. -/
theorem larger_limit_adds_hits {table : RuleTable σ ι} (valid : table.Valid)
    (site site' : SiteId) {limit larger : Nat} (le : limit ≤ larger) (run : List σ) :
    (∀ before, before <+: run →
      ((new site table limit).after before).entries =
        ((new site' table larger).after before).entries.take limit) ∧
      (∀ (call : Nat) (answer : Selection ι),
        ((new site table limit).answers run)[call]? = some answer → answer.route ≠ .generic →
          ((new site' table larger).answers run)[call]? = some answer) ∧
      ((new site table limit).answers run).countP (fun answer => answer.route.isCached) ≤
        ((new site' table larger).answers run).countP (fun answer => answer.route.isCached) ∧
      ((new site' table larger).answers run).countP (fun answer => answer.route.isGeneric) ≤
        ((new site table limit).answers run).countP fun answer => answer.route.isGeneric := by
  have start := trails_new site site' table le
  have ruled := ruled_new site' table larger
  have repeats := start.answers valid ruled run
  refine ⟨?_, ?_, ?_, ?_⟩
  · intro before _
    have entries := (start.after valid ruled before).entries
    rw [after_limit] at entries
    exact entries
  · intro call answer given specific
    obtain ⟨same_length, each⟩ := List.forall₂_iff_get.mp repeats
    obtain ⟨bound, rfl⟩ := List.getElem?_eq_some_iff.mp given
    have bound' := bound
    rw [same_length] at bound'
    rw [List.getElem?_eq_getElem bound']
    exact congrArg some (each call bound bound' specific)
  · exact countP_le_of_forall₂ repeats fun _ _ => Repeats.isCached
  · exact countP_le_of_forall₂ repeats.flip fun _ _ => Repeats.isGeneric

theorem larger_limit_adds_hits_slots :
    RuleTable.slots.Valid ∧ 1 ≤ 2 ∧ [0, 5] <+: [0, 5, 0, 5] ∧
      ((new ⟨0⟩ RuleTable.slots 1).after [0, 5]).shapes =
        ((new ⟨1⟩ RuleTable.slots 2).after [0, 5]).shapes.take 1 ∧
      ((new ⟨0⟩ RuleTable.slots 1).answers [0, 5, 0, 5])[2]? = some ⟨"near", .cached 0⟩ ∧
      ((new ⟨1⟩ RuleTable.slots 2).answers [0, 5, 0, 5])[2]? = some ⟨"near", .cached 0⟩ ∧
      ((new ⟨1⟩ RuleTable.slots 2).answers [0, 5, 0, 5]).countP (·.route.isGeneric) ≤
        ((new ⟨0⟩ RuleTable.slots 1).answers [0, 5, 0, 5]).countP (·.route.isGeneric) := by
  have valid := RuleTable.slots_valid
  have le : 1 ≤ 2 := by decide
  have earlier : [0, 5] <+: ([0, 5, 0, 5] : List (Fin 6)) := by decide
  have cached : ((new ⟨0⟩ RuleTable.slots 1).answers [0, 5, 0, 5])[2]? =
      some ⟨"near", .cached 0⟩ := rfl
  have specific : Route.cached 0 ≠ .generic := by decide
  have better := larger_limit_adds_hits valid ⟨0⟩ ⟨1⟩ le [0, 5, 0, 5]
  refine ⟨valid, le, by decide, ?_, cached, ?_, better.2.2.2⟩
  · rw [shapes, better.1 [0, 5] earlier, List.map_take]
    rfl
  · exact better.2.1 2 _ cached specific

end InlineCache

end AdaptiveDispatch
