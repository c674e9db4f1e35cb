import AdaptiveDispatch.Dispatch.Cache
import AdaptiveDispatch.Proofs.Dispatch.Table

/-!
# One call of an inline cache

`Step` lists what a call can do, together with what is known when it does it. Every later
fact about calls is derived from these four cases, so that `select` is opened only here.

`Ruled` is the invariant behind all dispatch: an installed entry carries the rule that
accepts its shape. It makes a call answer with that rule or with the fallback, whichever
route the answer took.
-/

namespace AdaptiveDispatch.InlineCache

variable {σ ι : Type} {cache : InlineCache σ ι} {shape : σ}

/-- The installed shapes, in the order in which they were installed. -/
def shapes (cache : InlineCache σ ι) : List σ :=
  cache.entries.map (·.shape)

@[simp] theorem length_shapes (cache : InlineCache σ ι) :
    cache.shapes.length = cache.entries.length :=
  List.length_map _

@[simp] theorem hit_entries (cache : InlineCache σ ι) (entry : CacheEntry σ ι) :
    (cache.hit entry).2.entries = cache.entries := rfl

@[simp] theorem fallBack_entries (cache : InlineCache σ ι) :
    cache.fallBack.2.entries = cache.entries := rfl

@[simp] theorem install_entries (cache : InlineCache σ ι) (shape : σ) (rule : Rule σ ι) :
    (cache.install shape rule).2.entries =
      cache.entries ++ [⟨shape, rule.name, cache.entries.length, rule.implementation⟩] := rfl

@[simp] theorem install_shapes (cache : InlineCache σ ι) (shape : σ) (rule : Rule σ ι) :
    (cache.install shape rule).2.shapes = cache.shapes ++ [shape] := by
  rw [shapes, install_entries, List.map_append]
  rfl

variable [DecidableEq σ]

theorem find?_eq_none_iff : cache.find? shape = none ↔ shape ∉ cache.shapes := by
  simp only [find?, shapes, List.find?_eq_none, decide_eq_true_eq, List.mem_map, not_exists,
    not_and]

theorem mem_entries_of_find? {entry : CacheEntry σ ι} (found : cache.find? shape = some entry) :
    entry ∈ cache.entries :=
  List.mem_of_find?_eq_some found

theorem shape_of_find? {entry : CacheEntry σ ι} (found : cache.find? shape = some entry) :
    entry.shape = shape := by
  have matched := List.find?_some found
  exact of_decide_eq_true matched

theorem mem_shapes_of_find? {entry : CacheEntry σ ι} (found : cache.find? shape = some entry) :
    shape ∈ cache.shapes := by
  rw [← shape_of_find? found]
  exact List.mem_map_of_mem (mem_entries_of_find? found)

/-- An entry that is found stays found when others are installed behind it. -/
theorem find?_of_prefix {later : InlineCache σ ι} {entry : CacheEntry σ ι}
    (found : cache.find? shape = some entry) (grown : cache.entries <+: later.entries) :
    later.find? shape = some entry := by
  obtain ⟨more, grown⟩ := grown
  unfold find? at found ⊢
  rw [← grown, List.find?_append, found]
  rfl

variable [ShapeDomain σ]

/-- What one call can do, and when. -/
inductive Step (cache : InlineCache σ ι) (shape : σ) : Selection ι × InlineCache σ ι → Prop
  | hit {entry : CacheEntry σ ι} (found : cache.find? shape = some entry) :
      Step cache shape (cache.hit entry)
  | unruled (unseen : shape ∉ cache.shapes) (unaccepted : cache.table.accepted shape = false) :
      Step cache shape cache.fallBack
  | full (unseen : shape ∉ cache.shapes) (accepted : cache.table.accepted shape = true)
      (full : cache.limit ≤ cache.entries.length) :
      Step cache shape { cache with saturated := true }.fallBack
  | install {rule : Rule σ ι} (unseen : shape ∉ cache.shapes)
      (accepts : cache.table.Accepts shape rule) (room : cache.entries.length < cache.limit) :
      Step cache shape (cache.install shape rule)

theorem select_step (valid : cache.table.Valid) (shape : σ) :
    Step cache shape (cache.select shape) := by
  cases found : cache.find? shape with
  | some entry =>
      rw [select_of_find?_eq_some found]
      exact .hit found
  | none =>
      have unseen := find?_eq_none_iff.mp found
      cases ruled : cache.table.ruleFor? shape with
      | none =>
          rw [select_of_ruleFor?_eq_none found ruled]
          exact .unruled unseen (valid.ruleFor?_eq_none_iff.mp ruled)
      | some entry =>
          have accepts := valid.exists_ruleFor?_iff.mp ⟨entry.1, ruled⟩
          by_cases full : cache.limit ≤ cache.entries.length
          · rw [select_of_full found ruled full]
            exact .full unseen accepts.accepted full
          · have room := Nat.lt_of_not_le full
            rw [select_of_room found ruled room]
            exact .install unseen accepts room

omit [ShapeDomain σ] in
/-- A call changes neither the site nor the table nor the limit. -/
theorem select_fixed (cache : InlineCache σ ι) (shape : σ) :
    (cache.select shape).2.site = cache.site ∧ (cache.select shape).2.table = cache.table ∧
      (cache.select shape).2.limit = cache.limit := by
  unfold select
  split
  · exact ⟨rfl, rfl, rfl⟩
  · split
    · exact ⟨rfl, rfl, rfl⟩
    · split
      · exact ⟨rfl, rfl, rfl⟩
      · exact ⟨rfl, rfl, rfl⟩

omit [ShapeDomain σ] in
@[simp] theorem select_site (cache : InlineCache σ ι) (shape : σ) :
    (cache.select shape).2.site = cache.site :=
  (select_fixed cache shape).1

omit [ShapeDomain σ] in
@[simp] theorem select_table (cache : InlineCache σ ι) (shape : σ) :
    (cache.select shape).2.table = cache.table :=
  (select_fixed cache shape).2.1

omit [ShapeDomain σ] in
@[simp] theorem select_limit (cache : InlineCache σ ι) (shape : σ) :
    (cache.select shape).2.limit = cache.limit :=
  (select_fixed cache shape).2.2

theorem valid_select (valid : cache.table.Valid) (shape : σ) :
    (cache.select shape).2.table.Valid := by
  rw [select_table]
  exact valid

/-- Installed entries stay where they are. -/
theorem entries_prefix_select (valid : cache.table.Valid) (shape : σ) :
    cache.entries <+: (cache.select shape).2.entries := by
  have step := select_step valid shape
  generalize cache.select shape = result at step ⊢
  cases step with
  | hit _ | unruled _ _ | full _ _ _ => exact List.prefix_rfl
  | install _ _ _ => exact List.prefix_append _ _

/-- The entries are numbered by their positions. -/
def Numbered (cache : InlineCache σ ι) : Prop :=
  cache.entries.map (·.order) = List.range cache.entries.length

omit [DecidableEq σ] [ShapeDomain σ] in
theorem Numbered.order_eq {position : Nat} {entry : CacheEntry σ ι} (numbered : cache.Numbered)
    (there : cache.entries[position]? = some entry) : entry.order = position := by
  obtain ⟨bound, _⟩ := List.getElem?_eq_some_iff.mp there
  have order := congrArg (fun orders => orders[position]?) numbered
  simpa [there, List.getElem?_range bound] using order

omit [ShapeDomain σ] in
/-- The number of an entry leads back to its shape. -/
theorem Numbered.getElem?_shapes {entry : CacheEntry σ ι} (numbered : cache.Numbered)
    (found : cache.find? shape = some entry) : cache.shapes[entry.order]? = some shape := by
  obtain ⟨position, there⟩ := List.mem_iff_getElem?.mp (mem_entries_of_find? found)
  rw [numbered.order_eq there, shapes, List.getElem?_map, there, Option.map_some,
    shape_of_find? found]

theorem Numbered.select (numbered : cache.Numbered) (valid : cache.table.Valid) (shape : σ) :
    (cache.select shape).2.Numbered := by
  have step := select_step valid shape
  generalize cache.select shape = result at step ⊢
  cases step with
  | hit _ | unruled _ _ | full _ _ _ => exact numbered
  | install _ _ _ =>
      unfold Numbered at numbered ⊢
      rw [install_entries, List.map_append, numbered, List.length_append, List.length_singleton,
        List.range_succ]
      rfl

/-- Every entry carries the name and the implementation of the rule that accepts its
shape. -/
def Ruled (cache : InlineCache σ ι) : Prop :=
  ∀ entry ∈ cache.entries, ∃ rule, cache.table.Accepts entry.shape rule ∧
    entry.rule = rule.name ∧ entry.implementation = rule.implementation

omit [DecidableEq σ] in
theorem ruled_new (site : SiteId) (table : RuleTable σ ι) (limit : Nat) :
    (new site table limit).Ruled := by
  intro entry member
  cases member

theorem Ruled.select (ruled : cache.Ruled) (valid : cache.table.Valid) (shape : σ) :
    (cache.select shape).2.Ruled := by
  have step := select_step valid shape
  generalize cache.select shape = result at step ⊢
  cases step with
  | hit _ | unruled _ _ | full _ _ _ => exact ruled
  | install _ accepts _ =>
      intro entry member
      rcases List.mem_append.mp member with old | new
      · exact ruled entry old
      · rw [List.mem_singleton] at new
        subst new
        exact ⟨_, accepts, rfl, rfl⟩

/-- A call answers with the rule that accepts the shape or with the fallback. -/
theorem Ruled.implementation_select (ruled : cache.Ruled) (valid : cache.table.Valid)
    (shape : σ) :
    (cache.select shape).1.implementation = cache.table.fallback ∨
      ∃ rule, cache.table.Accepts shape rule ∧
        (cache.select shape).1.implementation = rule.implementation := by
  have step := select_step valid shape
  generalize cache.select shape = result at step ⊢
  cases step with
  | hit found =>
      obtain ⟨rule, accepts, _, same⟩ := ruled _ (mem_entries_of_find? found)
      rw [shape_of_find? found] at accepts
      exact .inr ⟨rule, accepts, same⟩
  | unruled _ _ => exact .inl rfl
  | full _ _ _ => exact .inl rfl
  | install _ accepts _ => exact .inr ⟨_, accepts, rfl⟩

end AdaptiveDispatch.InlineCache
