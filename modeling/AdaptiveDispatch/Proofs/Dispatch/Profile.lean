import AdaptiveDispatch.Proofs.Dispatch.Run
import Mathlib.Data.List.Perm.Subperm

/-!
# The profile of a cache

The profile is read off the number of entries and a flag, and the flag is raised far away
from where entries are made: a full cache raises it when it turns an accepted shape away.
Still one number decides both. It is the number of distinct accepted shapes that were
called, whatever the order of the calls and however often each was made.

So the profile forgets nothing about a run but that number, and it can only move from
`uninitialized` towards `megamorphic` while the number grows.
-/

namespace AdaptiveDispatch

variable {σ ι : Type} [DecidableEq σ]

namespace Profile

/-- The profile of a cache with some limit after a number of distinct accepted shapes. -/
def ofCount (limit count : Nat) : Profile :=
  if limit < count then .megamorphic
  else
    match count with
    | 0 => .uninitialized
    | 1 => .monomorphic
    | _ + 2 => .polymorphic

/-- The position of a profile on the way from no shape to too many. -/
def rank : Profile → Nat
  | .uninitialized => 0
  | .monomorphic => 1
  | .polymorphic => 2
  | .megamorphic => 3

instance : LE Profile := ⟨fun earlier later => earlier.rank ≤ later.rank⟩

instance (earlier later : Profile) : Decidable (earlier ≤ later) :=
  inferInstanceAs (Decidable (earlier.rank ≤ later.rank))

theorem ofCount_eq_megamorphic_iff {limit count : Nat} :
    ofCount limit count = .megamorphic ↔ limit < count := by
  unfold ofCount
  split
  · rename_i beyond
    exact iff_of_true rfl beyond
  · rename_i under
    refine iff_of_false ?_ under
    intro same
    split at same <;> cases same

theorem rank_ofCount (limit count : Nat) :
    (ofCount limit count).rank = if limit < count then 3 else min count 2 := by
  unfold ofCount
  split
  · rfl
  · match count with
    | 0 | 1 => rfl
    | count + 2 => exact (Nat.min_eq_right (Nat.le_add_left 2 count)).symm

/-- More shapes never take a profile back. -/
theorem ofCount_le_ofCount {limit count more : Nat} (le : count ≤ more) :
    ofCount limit count ≤ ofCount limit more := by
  change (ofCount limit count).rank ≤ (ofCount limit more).rank
  rw [rank_ofCount, rank_ofCount]
  split <;> split <;> omega

end Profile

namespace RuleTable

variable [ShapeDomain σ] {table : RuleTable σ ι} {run other : List σ}

/-- How many shapes are new in a run does not depend on their order, on repetitions or on
shapes that no rule accepts. -/
theorem length_newcomers_congr
    (same : ∀ shape, table.accepted shape = true → (shape ∈ other ↔ shape ∈ run)) :
    (table.newcomers other).length = (table.newcomers run).length := by
  apply List.Perm.length_eq
  rw [List.perm_ext_iff_of_nodup (table.nodup_newcomers other) (table.nodup_newcomers run)]
  intro shape
  rw [mem_newcomers, mem_newcomers]
  exact and_congr_left (same shape)

theorem length_newcomers_le (table : RuleTable σ ι) (run later : List σ) :
    (table.newcomers run).length ≤ (table.newcomers (run ++ later)).length := by
  have subset : table.newcomers run ⊆ table.newcomers (run ++ later) := by
    intro shape new
    obtain ⟨member, accepted⟩ := mem_newcomers.mp new
    exact mem_newcomers.mpr ⟨List.mem_append_left later member, accepted⟩
  exact ((table.nodup_newcomers run).subperm subset).length_le

end RuleTable

namespace InlineCache

variable [ShapeDomain σ] {cache : InlineCache σ ι} {table : RuleTable σ ι}

/-- A call raises the flag of a cache exactly when it brings in one shape more than there
is room for. -/
theorem saturated_select_iff {run : List σ} (holds : cache.Holds (table.newcomers run))
    (valid : table.Valid) (same : cache.table = table)
    (flag : cache.saturated = true ↔ cache.limit < (table.newcomers run).length) (shape : σ) :
    (cache.select shape).2.saturated = true ↔
      (cache.select shape).2.limit < (table.newcomers (run ++ [shape])).length := by
  subst same
  have count := holds.length_eq
  have step := select_step valid shape
  generalize cache.select shape = result at step ⊢
  cases step with
  | hit found =>
      have seen := mem_shapes_of_find? found
      rw [holds.shapes] at seen
      rw [RuleTable.newcomers_append_of_mem (List.mem_of_mem_take seen)]
      exact flag
  | unruled _ unaccepted =>
      rw [RuleTable.newcomers_append_of_not_accepted unaccepted]
      exact flag
  | full unseen accepted full =>
      refine iff_of_true rfl ?_
      show cache.limit < (cache.table.newcomers (run ++ [shape])).length
      by_cases known : shape ∈ cache.table.newcomers run
      · -- A newcomer that is not held lies behind the limit, so there were too many before.
        rw [RuleTable.newcomers_append_of_mem known]
        by_contra few
        rw [holds.shapes, List.take_of_length_le (Nat.le_of_not_lt few)] at unseen
        exact unseen known
      · rw [RuleTable.newcomers_append_of_not_mem accepted known, List.length_append]
        simp only [List.length_singleton]
        omega
  | install unseen accepts room =>
      -- The shape may be new or not: there is room for one more in any case.
      have more : (cache.table.newcomers (run ++ [shape])).length ≤
          (cache.table.newcomers run).length + 1 := by
        rcases cache.table.newcomers_append_singleton run shape with same | ⟨_, more⟩
        · rw [same]
          omega
        · simp [more]
      have lowered : ¬ cache.saturated = true := by
        rw [flag]
        omega
      refine iff_of_false lowered ?_
      show ¬ cache.limit < _
      omega

/-- After a run the flag is up exactly if the run had more newcomers than the cache can
hold. -/
theorem saturated_after_iff (valid : table.Valid) (site : SiteId) (limit : Nat) (run : List σ) :
    ((new site table limit).after run).saturated = true ↔
      ((new site table limit).after run).limit < (table.newcomers run).length := by
  induction run using List.reverseRecOn with
  | nil => exact iff_of_false Bool.false_ne_true (Nat.not_lt_zero limit)
  | append_singleton run shape ih =>
      rw [after_append_singleton]
      exact saturated_select_iff (holds_after valid site limit run) valid (after_table _ _) ih shape

omit [DecidableEq σ] [ShapeDomain σ] in
/-- The number of entries and the flag amount to one number. -/
theorem profile_eq_ofCount {count : Nat}
    (flag : cache.saturated = true ↔ cache.limit < count)
    (length : cache.entries.length = min cache.limit count) :
    cache.profile = .ofCount cache.limit count := by
  unfold profile Profile.ofCount
  by_cases beyond : cache.limit < count
  · rw [if_pos (flag.mpr beyond), if_pos beyond]
  · have whole : cache.entries.length = count := by omega
    rw [if_neg (mt flag.mp beyond), if_neg beyond, ← whole]
    match cache.entries with
    | [] | [_] | _ :: _ :: _ => rfl

theorem profile_after (valid : table.Valid) (site : SiteId) (limit : Nat) (run : List σ) :
    ((new site table limit).after run).profile =
      .ofCount limit (table.newcomers run).length := by
  have profile := profile_eq_ofCount (saturated_after_iff valid site limit run)
    (holds_after valid site limit run).length_eq
  rw [after_limit] at profile
  exact profile

/-- The profile after a run is decided by the limit and the number of distinct accepted
shapes. Runs with the same accepted shapes have the same profile, in whatever order and
however often they call them and whatever else they call. Further calls never take the
profile back, and a cache that is megamorphic stays so. -/
theorem profile_after_run (valid : table.Valid) (site : SiteId) (limit : Nat) (run : List σ) :
    ((new site table limit).after run).profile =
        .ofCount limit (table.newcomers run).length ∧
      (∀ other, (∀ shape, table.accepted shape = true → (shape ∈ other ↔ shape ∈ run)) →
        ((new site table limit).after other).profile =
          ((new site table limit).after run).profile) ∧
      (∀ later, ((new site table limit).after run).profile ≤
        ((new site table limit).after (run ++ later)).profile) ∧
      (((new site table limit).after run).profile = .megamorphic →
        ∀ later, ((new site table limit).after (run ++ later)).profile = .megamorphic) := by
  refine ⟨profile_after valid site limit run, ?_, ?_, ?_⟩
  · intro other same
    rw [profile_after valid, profile_after valid, RuleTable.length_newcomers_congr same]
  · intro later
    rw [profile_after valid, profile_after valid]
    exact Profile.ofCount_le_ofCount (table.length_newcomers_le run later)
  · intro full later
    rw [profile_after valid, Profile.ofCount_eq_megamorphic_iff] at full ⊢
    exact Nat.lt_of_lt_of_le full (table.length_newcomers_le run later)

theorem profile_after_run_slots :
    RuleTable.slots.Valid ∧
      ((new ⟨0⟩ RuleTable.slots 2).after [0, 3, 5, 0]).profile = .polymorphic ∧
      ((new ⟨0⟩ RuleTable.slots 2).after [5, 0, 4, 5]).profile = .polymorphic ∧
      ((new ⟨0⟩ RuleTable.slots 2).after [5, 0, 1, 0]).profile = .megamorphic := by
  have valid := RuleTable.slots_valid
  have profile := profile_after_run valid ⟨0⟩ 2 [0, 3, 5, 0]
  have permuted := profile.2.1 [5, 0, 4, 5] (by decide)
  have beyond := (profile_after_run valid ⟨0⟩ 2 [5, 0, 1, 0]).1
  have two : ((new ⟨0⟩ RuleTable.slots 2).after [0, 3, 5, 0]).profile = .polymorphic := by
    rw [profile.1]
    decide
  refine ⟨valid, two, permuted.trans two, ?_⟩
  rw [beyond]
  decide

end InlineCache

end AdaptiveDispatch
