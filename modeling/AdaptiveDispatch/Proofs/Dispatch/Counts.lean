import AdaptiveDispatch.Proofs.Dispatch.Routes

/-!
# What the counters count

Every call raises the counter of the route that it took, so the counters of a cache agree
with the answers it gave. For a run from the start they can be read off the run as well.
As many calls were installing as there are entries, and a call was generic exactly if its
shape is not installed in the end: what is turned away once is never installed later.

Counters are kept in 64 bits and start again from zero when they are full. A run of fewer
than that many calls does not fill them.
-/

namespace AdaptiveDispatch

variable {σ ι : Type} [DecidableEq σ]

namespace Route

def isCached : Route → Bool
  | .cached _ => true
  | .installed _ | .generic => false

def isInstalled (route : Route) : Bool :=
  route.installed?.isSome

def isGeneric (route : Route) : Bool :=
  route.position?.isNone

end Route

namespace RouteCounts

/-- The counts after one more call. -/
def record (counts : RouteCounts) : Route → RouteCounts
  | .cached _ => { counts with hits := counts.hits + 1 }
  | .installed _ => { counts with installs := counts.installs + 1 }
  | .generic => { counts with generic := counts.generic + 1 }

/-- How many of some routes are of each kind. -/
def tally (routes : List Route) : RouteCounts where
  hits := routes.countP Route.isCached
  installs := routes.countP Route.isInstalled
  generic := routes.countP Route.isGeneric

/-- The number of calls that were counted. -/
def total (counts : RouteCounts) : Nat :=
  counts.hits + counts.installs + counts.generic

theorem tally_append_singleton (routes : List Route) (route : Route) :
    tally (routes ++ [route]) = (tally routes).record route := by
  cases route <;>
    simp [tally, record, Route.isCached, Route.isInstalled, Route.isGeneric, Route.installed?,
      Route.position?]

@[simp] theorem total_record (counts : RouteCounts) (route : Route) :
    (counts.record route).total = counts.total + 1 := by
  cases route <;> simp only [record, total] <;> omega

@[simp] theorem total_tally (routes : List Route) : (tally routes).total = routes.length := by
  induction routes using List.reverseRecOn with
  | nil => rfl
  | append_singleton routes route ih =>
      rw [tally_append_singleton, total_record, ih, List.length_append, List.length_singleton]

/-- Counters that have counted few enough calls show the counts. -/
theorem snapshot_of_total_lt {counts : RouteCounts} (few : counts.total < UInt64.size) :
    counts.snapshot = counts := by
  rw [total] at few
  have hits : counts.hits < UInt64.size := by omega
  have installs : counts.installs < UInt64.size := by omega
  have generic : counts.generic < UInt64.size := by omega
  rw [snapshot, Nat.mod_eq_of_lt hits, Nat.mod_eq_of_lt installs, Nat.mod_eq_of_lt generic]

end RouteCounts

namespace RuleTable

variable [ShapeDomain σ]

/-- The calls whose shape is not among the first newcomers have a shape that no rule
accepts or a newcomer that came too late. -/
theorem countP_not_mem_take (table : RuleTable σ ι) (limit : Nat) (run : List σ) :
    run.countP (fun shape => decide (shape ∉ (table.newcomers run).take limit)) =
      run.countP (fun shape => !table.accepted shape) +
        run.countP fun shape =>
          table.accepted shape && decide (shape ∉ (table.newcomers run).take limit) := by
  rw [List.countP_eq_countP_filter_add run _ fun shape => !table.accepted shape,
    List.countP_filter, List.countP_filter]
  congr 1
  · apply List.countP_congr
    intro shape _
    rw [Bool.and_eq_true, decide_eq_true_eq]
    refine and_iff_right_of_imp ?_
    intro unaccepted held
    have accepted := (mem_newcomers.mp (List.mem_of_mem_take held)).2
    simp [accepted] at unaccepted
  · apply List.countP_congr
    intro shape _
    rw [Bool.not_not, Bool.and_comm]

end RuleTable

namespace InlineCache

variable [ShapeDomain σ] {cache : InlineCache σ ι} {table : RuleTable σ ι}

/-- A call is counted by the route it took. -/
theorem select_counts (valid : cache.table.Valid) (shape : σ) :
    (cache.select shape).2.counts = cache.counts.record (cache.select shape).1.route := by
  have step := select_step valid shape
  generalize cache.select shape = result at step ⊢
  cases step with
  | hit _ | unruled _ _ | full _ _ _ | install _ _ _ => rfl

theorem counts_after (valid : table.Valid) (site : SiteId) (limit : Nat) (run : List σ) :
    ((new site table limit).after run).counts =
      .tally (((new site table limit).answers run).map (·.route)) := by
  induction run using List.reverseRecOn with
  | nil => rfl
  | append_singleton run shape ih =>
      have valid' : ((new site table limit).after run).table.Valid := by
        rw [after_table]
        exact valid
      rw [after_append_singleton, select_counts valid' shape, ih, answers_append, List.map_append]
      exact (RouteCounts.tally_append_singleton _ _).symm

theorem Barred.after {shape : σ} (barred : cache.Barred shape) (valid : cache.table.Valid)
    (run : List σ) : (cache.after run).Barred shape := by
  induction run generalizing cache with
  | nil => exact barred
  | cons first run ih => exact ih (barred.select valid first) (valid_select valid first)

/-- A call that is answered with the fallback bars its shape, and any other leaves it
installed. -/
theorem barred_or_mem_select (valid : cache.table.Valid) (shape : σ) :
    (cache.select shape).1.route.isGeneric = true ∧ (cache.select shape).2.Barred shape ∨
      (cache.select shape).1.route.isGeneric = false ∧
        shape ∈ (cache.select shape).2.shapes := by
  have step := select_step valid shape
  generalize cache.select shape = result at step ⊢
  cases step with
  | hit found => exact .inr ⟨rfl, mem_shapes_of_find? found⟩
  | unruled unseen unaccepted => exact .inl ⟨rfl, unseen, .inl unaccepted⟩
  | full unseen _ full => exact .inl ⟨rfl, unseen, .inr full⟩
  | install _ _ _ =>
      refine .inr ⟨rfl, ?_⟩
      rw [install_shapes]
      exact List.mem_append_right _ (List.mem_singleton_self shape)

/-- A call was generic exactly if its shape is not installed in the end. -/
theorem isGeneric_select (valid : cache.table.Valid) (shape : σ) (later : List σ) :
    (cache.select shape).1.route.isGeneric =
      decide (shape ∉ (cache.after (shape :: later)).shapes) := by
  have valid' := valid_select valid shape
  rw [after_cons]
  rcases barred_or_mem_select valid shape with ⟨generic, barred⟩ | ⟨specific, installed⟩
  · rw [generic, eq_comm, decide_eq_true_eq]
    exact (barred.after valid' later).1
  · rw [specific, eq_comm, decide_eq_false_iff_not, not_not]
    exact (shapes_prefix_after valid' later).subset installed

theorem countP_isGeneric (cache : InlineCache σ ι) (valid : cache.table.Valid) (run : List σ) :
    (cache.answers run).countP (fun answer => answer.route.isGeneric) =
      run.countP fun shape => decide (shape ∉ (cache.after run).shapes) := by
  induction run generalizing cache with
  | nil => rfl
  | cons first run ih =>
      rw [answers, List.countP_cons, List.countP_cons, ih _ (valid_select valid first),
        isGeneric_select valid first run]
      rfl

/-- The installing calls of a run are as many as the entries they made. -/
theorem countP_isInstalled (valid : table.Valid) (site : SiteId) (limit : Nat) (run : List σ) :
    ((new site table limit).answers run).countP (fun answer => answer.route.isInstalled) =
      ((new site table limit).after run).entries.length := by
  have start : (new site table limit).table.Valid := valid
  have positions := congrArg List.length (range_append_installed start run)
  rw [List.length_append, List.length_range, List.length_range,
    List.length_filterMap_eq_countP] at positions
  exact (Nat.zero_add _).symm.trans positions

/-- After a run of fewer than 2⁶⁴ calls the counters show how many of its answers took each
route, and together the number of its calls. As many calls installed an entry as there are
entries. The generic calls are those with a shape that no rule accepts and those with an
accepted shape that is not among the first of the run, as many as the limit allows. -/
theorem counts_after_run (valid : table.Valid) (site : SiteId) (limit : Nat) (run : List σ)
    (short : run.length < UInt64.size) :
    ((new site table limit).after run).counts.snapshot =
        .tally (((new site table limit).answers run).map (·.route)) ∧
      ((new site table limit).after run).counts.snapshot.total = run.length ∧
      ((new site table limit).after run).counts.snapshot.installs =
        ((new site table limit).after run).entries.length ∧
      ((new site table limit).after run).entries.length =
        min limit (table.newcomers run).length ∧
      ((new site table limit).after run).counts.snapshot.generic =
        run.countP (fun shape => !table.accepted shape) +
          run.countP fun shape =>
            table.accepted shape && decide (shape ∉ (table.newcomers run).take limit) := by
  have holds := holds_after valid site limit run
  have counts := counts_after valid site limit run
  have total : ((new site table limit).after run).counts.total = run.length := by
    rw [counts, RouteCounts.total_tally, List.length_map, length_answers]
  have shown : ((new site table limit).after run).counts.snapshot = _ :=
    RouteCounts.snapshot_of_total_lt (by omega)
  rw [shown]
  refine ⟨counts, total, ?_, ?_, ?_⟩
  · rw [counts, ← countP_isInstalled valid]
    exact List.countP_map
  · rw [holds.length_eq, after_limit]
    rfl
  · have held : ((new site table limit).after run).shapes = (table.newcomers run).take limit := by
      rw [holds.shapes, after_limit]
      rfl
    have generic : ((new site table limit).after run).counts.generic =
        run.countP fun shape => decide (shape ∉ ((new site table limit).after run).shapes) := by
      rw [counts, ← countP_isGeneric (new site table limit) valid run]
      exact List.countP_map
    rw [generic, held, table.countP_not_mem_take]

theorem counts_after_run_slots :
    RuleTable.slots.Valid ∧ [0, 3, 5, 0, 1, 5].length < UInt64.size ∧
      ((new ⟨0⟩ RuleTable.slots 2).after [0, 3, 5, 0, 1, 5]).counts.snapshot = ⟨2, 2, 2⟩ := by
  have valid := RuleTable.slots_valid
  have short : [0, 3, 5, 0, 1, 5].length < UInt64.size := by decide
  have counts := counts_after_run valid ⟨0⟩ 2 [0, 3, 5, 0, 1, 5] short
  refine ⟨valid, short, ?_⟩
  rw [counts.1]
  decide

end InlineCache

end AdaptiveDispatch
