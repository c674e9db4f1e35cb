import AdaptiveDispatch.Proofs.Dispatch.Select
import Mathlib.Data.List.Induction

/-!
# Runs of calls

A run is a list of shapes, selected one after the other. What a cache holds after a run
is a function of the run alone: the distinct accepted shapes in the order in which they
first occur, cut off at the limit. `Holds` ties the entries to that list; one call keeps
it, and so does every run.
-/

namespace AdaptiveDispatch

variable {σ ι : Type} [DecidableEq σ]

namespace RuleTable

variable [ShapeDomain σ]

/-- The distinct accepted shapes of a run, in the order in which they first occur. -/
def newcomers (table : RuleTable σ ι) (run : List σ) : List σ :=
  (run.filter table.accepted).eraseDups

variable {table : RuleTable σ ι} {shape : σ} {run : List σ}

theorem mem_newcomers :
    shape ∈ table.newcomers run ↔ shape ∈ run ∧ table.accepted shape = true := by
  rw [newcomers, List.mem_eraseDups, List.mem_filter]

theorem newcomers_append_of_mem (known : shape ∈ table.newcomers run) :
    table.newcomers (run ++ [shape]) = table.newcomers run := by
  obtain ⟨member, accepted⟩ := mem_newcomers.mp known
  simp [newcomers, List.filter_append, List.eraseDups_append, accepted, List.removeAll, member]

theorem newcomers_append_of_not_accepted (unaccepted : table.accepted shape = false) :
    table.newcomers (run ++ [shape]) = table.newcomers run := by
  simp [newcomers, List.filter_append, unaccepted]

theorem newcomers_append_of_not_mem (accepted : table.accepted shape = true)
    (unknown : shape ∉ table.newcomers run) :
    table.newcomers (run ++ [shape]) = table.newcomers run ++ [shape] := by
  have new : shape ∉ run := fun member => unknown (mem_newcomers.mpr ⟨member, accepted⟩)
  simp [newcomers, List.filter_append, List.eraseDups_append, accepted, List.removeAll, new,
    List.eraseDups_cons]

/-- A shape adds itself to the newcomers or leaves them alone. -/
theorem newcomers_append_singleton (table : RuleTable σ ι) (run : List σ) (shape : σ) :
    table.newcomers (run ++ [shape]) = table.newcomers run ∨
      shape ∉ table.newcomers run ∧
        table.newcomers (run ++ [shape]) = table.newcomers run ++ [shape] := by
  by_cases known : shape ∈ table.newcomers run
  · exact .inl (newcomers_append_of_mem known)
  · cases accepted : table.accepted shape with
    | false => exact .inl (newcomers_append_of_not_accepted accepted)
    | true => exact .inr ⟨known, newcomers_append_of_not_mem accepted known⟩

theorem nodup_newcomers (table : RuleTable σ ι) (run : List σ) : (table.newcomers run).Nodup := by
  induction run using List.reverseRecOn with
  | nil => exact List.nodup_nil
  | append_singleton run shape ih =>
      rcases table.newcomers_append_singleton run shape with same | ⟨new, more⟩
      · rw [same]
        exact ih
      · rw [more]
        refine List.nodup_append.mpr ⟨ih, List.pairwise_singleton _ shape, ?_⟩
        intro a member b last
        rw [List.mem_singleton] at last
        rintro rfl
        exact new (last ▸ member)

end RuleTable

namespace InlineCache

/-- The cache after a run of calls. -/
def after (cache : InlineCache σ ι) (run : List σ) : InlineCache σ ι :=
  run.foldl (fun cache shape => (cache.select shape).2) cache

/-- The answers to a run of calls, in order. -/
def answers (cache : InlineCache σ ι) : List σ → List (Selection ι)
  | [] => []
  | shape :: run => (cache.select shape).1 :: (cache.select shape).2.answers run

@[simp] theorem after_nil (cache : InlineCache σ ι) : cache.after [] = cache := rfl

@[simp] theorem after_cons (cache : InlineCache σ ι) (shape : σ) (run : List σ) :
    cache.after (shape :: run) = (cache.select shape).2.after run := rfl

theorem after_append (cache : InlineCache σ ι) (run more : List σ) :
    cache.after (run ++ more) = (cache.after run).after more :=
  List.foldl_append

theorem after_append_singleton (cache : InlineCache σ ι) (run : List σ) (shape : σ) :
    cache.after (run ++ [shape]) = ((cache.after run).select shape).2 :=
  after_append cache run [shape]

theorem answers_append (cache : InlineCache σ ι) (run more : List σ) :
    cache.answers (run ++ more) = cache.answers run ++ (cache.after run).answers more := by
  induction run generalizing cache with
  | nil => rfl
  | cons shape run ih =>
      rw [List.cons_append, answers, answers, after_cons, ih, List.cons_append]

@[simp] theorem length_answers (cache : InlineCache σ ι) (run : List σ) :
    (cache.answers run).length = run.length := by
  induction run generalizing cache with
  | nil => rfl
  | cons shape run ih => rw [answers, List.length_cons, List.length_cons, ih]

@[simp] theorem after_site (cache : InlineCache σ ι) (run : List σ) :
    (cache.after run).site = cache.site := by
  induction run generalizing cache with
  | nil => rfl
  | cons shape run ih => rw [after_cons, ih, select_site]

@[simp] theorem after_table (cache : InlineCache σ ι) (run : List σ) :
    (cache.after run).table = cache.table := by
  induction run generalizing cache with
  | nil => rfl
  | cons shape run ih => rw [after_cons, ih, select_table]

@[simp] theorem after_limit (cache : InlineCache σ ι) (run : List σ) :
    (cache.after run).limit = cache.limit := by
  induction run generalizing cache with
  | nil => rfl
  | cons shape run ih => rw [after_cons, ih, select_limit]

variable [ShapeDomain σ] {cache : InlineCache σ ι} {table : RuleTable σ ι}

/-- Nothing that is installed is ever removed or moved. -/
theorem entries_prefix_after (valid : cache.table.Valid) (run : List σ) :
    cache.entries <+: (cache.after run).entries := by
  induction run generalizing cache with
  | nil => exact List.prefix_rfl
  | cons shape run ih =>
      exact (entries_prefix_select valid shape).trans (ih (valid_select valid shape))

theorem shapes_prefix_after (valid : cache.table.Valid) (run : List σ) :
    cache.shapes <+: (cache.after run).shapes :=
  (entries_prefix_after valid run).map CacheEntry.shape

/-- A cache holds the first of some shapes, as many as its limit allows. -/
structure Holds (cache : InlineCache σ ι) (seen : List σ) : Prop where
  shapes : cache.shapes = seen.take cache.limit
  numbered : cache.Numbered
  ruled : cache.Ruled

omit [DecidableEq σ] in
theorem Holds.length_eq {seen : List σ} (holds : cache.Holds seen) :
    cache.entries.length = min cache.limit seen.length := by
  rw [← length_shapes, holds.shapes, List.length_take]

/-- One call keeps a cache in step with the newcomers of its run. -/
theorem Holds.select {run : List σ} (holds : cache.Holds (table.newcomers run))
    (valid : table.Valid) (same : cache.table = table) (shape : σ) :
    (cache.select shape).2.Holds (table.newcomers (run ++ [shape])) := by
  subst same
  have count := holds.length_eq
  have numbered := holds.numbered.select valid shape
  have ruled := holds.ruled.select valid shape
  have step := select_step valid shape
  generalize cache.select shape = result at step numbered ruled ⊢
  cases step with
  | hit found =>
      have seen := mem_shapes_of_find? found
      rw [holds.shapes] at seen
      rw [RuleTable.newcomers_append_of_mem (List.mem_of_mem_take seen)]
      exact ⟨holds.shapes, numbered, ruled⟩
  | unruled _ unaccepted =>
      rw [RuleTable.newcomers_append_of_not_accepted unaccepted]
      exact ⟨holds.shapes, numbered, ruled⟩
  | full _ _ full =>
      refine ⟨?_, numbered, ruled⟩
      rcases cache.table.newcomers_append_singleton run shape with same | ⟨_, more⟩
      · rw [same]
        exact holds.shapes
      · -- The newcomer lies behind the limit, where nothing is held.
        have behind : cache.limit ≤ (cache.table.newcomers run).length := by omega
        show cache.shapes = List.take cache.limit _
        rw [more, List.take_append_of_le_length behind]
        exact holds.shapes
  | install unseen accepts room =>
      -- With room left nothing was cut off, so an uninstalled shape really is new.
      have uncut : (cache.table.newcomers run).length < cache.limit := by omega
      have whole := List.take_of_length_le (Nat.le_of_lt uncut)
      rw [holds.shapes, whole] at unseen
      rw [RuleTable.newcomers_append_of_not_mem accepts.accepted unseen]
      refine ⟨?_, numbered, ruled⟩
      have grown : (cache.table.newcomers run ++ [shape]).length ≤ cache.limit := by
        rw [List.length_append]
        exact uncut
      show (cache.install shape _).2.shapes = List.take cache.limit _
      rw [List.take_of_length_le grown, install_shapes, holds.shapes, whole]

theorem holds_after (valid : table.Valid) (site : SiteId) (limit : Nat) (run : List σ) :
    ((new site table limit).after run).Holds (table.newcomers run) := by
  induction run using List.reverseRecOn with
  | nil => exact ⟨List.take_nil.symm, rfl, ruled_new site table limit⟩
  | append_singleton run shape ih =>
      rw [after_append_singleton]
      exact ih.select valid (after_table _ _) shape

/-- Only shapes that were called are installed. -/
theorem mem_of_mem_shapes_after {shape : σ} {run : List σ} (valid : table.Valid)
    (site : SiteId) (limit : Nat) (seen : shape ∈ ((new site table limit).after run).shapes) :
    shape ∈ run := by
  rw [(holds_after valid site limit run).shapes] at seen
  exact (RuleTable.mem_newcomers.mp (List.mem_of_mem_take seen)).1

/-- What a cache has installed is a function of the run: the first distinct accepted
shapes, up to the limit, each with its position and with the rule that accepts it. No
shape is there twice, and further calls only add behind. -/
theorem installed_after_run (valid : table.Valid) (site : SiteId) (limit : Nat)
    (run : List σ) :
    ((new site table limit).after run).shapes = (table.newcomers run).take limit ∧
      (∀ (position : Nat) (entry : CacheEntry σ ι),
        ((new site table limit).after run).entries[position]? = some entry →
          entry.order = position ∧ (table.newcomers run)[position]? = some entry.shape ∧
            ∃ number rule, table.ruleFor? entry.shape = some (number, rule) ∧
              table.Accepts entry.shape rule ∧ entry.rule = rule.name ∧
              entry.implementation = rule.implementation) ∧
      ((new site table limit).after run).entries.length =
        min limit (table.newcomers run).length ∧
      ((new site table limit).after run).shapes.Nodup ∧
      ∀ later, ((new site table limit).after run).entries <+:
        ((new site table limit).after (run ++ later)).entries := by
  have holds := holds_after valid site limit run
  have shapes : ((new site table limit).after run).shapes = (table.newcomers run).take limit := by
    rw [holds.shapes, after_limit]
    rfl
  have length : ((new site table limit).after run).entries.length =
      min limit (table.newcomers run).length := by
    rw [holds.length_eq, after_limit]
    rfl
  refine ⟨shapes, ?_, length, ?_, ?_⟩
  · intro position entry there
    obtain ⟨bound, _⟩ := List.getElem?_eq_some_iff.mp there
    obtain ⟨rule, accepts, name, implementation⟩ := holds.ruled entry (List.mem_of_getElem? there)
    rw [after_table] at accepts
    obtain ⟨number, found⟩ := valid.exists_ruleFor?_iff.mpr accepts
    refine ⟨holds.numbered.order_eq there, ?_, number, rule, found, accepts, name, implementation⟩
    have shape : ((new site table limit).after run).shapes[position]? = some entry.shape := by
      rw [InlineCache.shapes, List.getElem?_map, there]
      rfl
    rw [shapes, List.getElem?_take_of_lt (by omega)] at shape
    exact shape
  · rw [shapes]
    exact (table.nodup_newcomers run).sublist (List.take_sublist limit _)
  · intro later
    rw [after_append]
    apply entries_prefix_after
    rw [after_table]
    exact valid

theorem installed_after_run_slots :
    RuleTable.slots.Valid ∧
      ((new ⟨0⟩ RuleTable.slots 2).after [0, 3, 5, 0, 1, 5]).shapes = [0, 5] := by
  have installed := installed_after_run RuleTable.slots_valid ⟨0⟩ 2 [0, 3, 5, 0, 1, 5]
  refine ⟨RuleTable.slots_valid, ?_⟩
  rw [installed.1]
  decide

end InlineCache

end AdaptiveDispatch
