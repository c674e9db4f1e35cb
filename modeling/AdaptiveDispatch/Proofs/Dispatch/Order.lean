import AdaptiveDispatch.Proofs.Dispatch.Run
import Mathlib.Data.List.Basic

/-!
# The order of the rules

A list of rules is checked in its order, and in that order each shape is looked up once and
for all. In a list that passes the check no two rules compete for a name or a shape, so
that no order of them is better than another. A permutation of the list is accepted as
well, and its table gives every shape the same rule.

A cache consults its table for nothing but the rule of a shape and the fallback. Two tables
that are `Alike` in this can be exchanged in any cache.
-/

namespace AdaptiveDispatch

variable {σ ι : Type}

namespace RuleTable

/-- No name is found repeated exactly if the names differ from each other and from those
seen before. -/
theorem firstRepeated_eq_none_iff {seen names : List String} :
    firstRepeated seen names = none ↔ names.Nodup ∧ ∀ name ∈ names, name ∉ seen := by
  induction names generalizing seen with
  | nil => simp [firstRepeated]
  | cons name rest ih =>
      by_cases known : name ∈ seen
      · simp [firstRepeated, known]
      · rw [firstRepeated, if_neg known, ih, List.nodup_cons, List.forall_mem_cons]
        constructor
        · rintro ⟨distinct, apart⟩
          have first : name ∉ rest := fun member => apart name member List.mem_cons_self
          refine ⟨⟨first, distinct⟩, known, ?_⟩
          intro other member
          exact fun old => apart other member (List.mem_cons_of_mem name old)
        · rintro ⟨⟨first, distinct⟩, _, apart⟩
          refine ⟨distinct, ?_⟩
          intro other member old
          rcases List.mem_cons.mp old with rfl | old
          · exact first member
          · exact apart other member old

theorem firstRepeated_names_eq_none_iff {rules : List (Rule σ ι)} :
    firstRepeated [] (rules.map (·.name)) = none ↔ (rules.map (·.name)).Nodup := by
  rw [firstRepeated_eq_none_iff]
  simp only [List.not_mem_nil, not_false_eq_true, implies_true, and_true]

variable [ShapeDomain σ] {rules other : List (Rule σ ι)} {fallback : ι}

/-- What is asked of a list of rules, without regard to their order. -/
structure Consistent (rules : List (Rule σ ι)) : Prop where
  nonempty : rules ≠ []
  names : (rules.map (·.name)).Nodup
  disjoint : ∀ shape ∈ ShapeDomain.domain, (rules.filter (·.guard shape)).length ≤ 1

theorem Consistent.perm (consistent : Consistent rules) (perm : rules.Perm other) :
    Consistent other where
  nonempty := by
    rintro rfl
    exact consistent.nonempty perm.eq_nil
  names := (perm.map (·.name)).nodup_iff.mp consistent.names
  disjoint := by
    intro shape listed
    rw [← (perm.filter (·.guard shape)).length_eq]
    exact consistent.disjoint shape listed

/-- Exactly the consistent lists of rules are accepted. -/
theorem exists_build_iff : (∃ table, build rules fallback = .ok table) ↔ Consistent rules := by
  constructor
  · rintro ⟨table, built⟩
    obtain ⟨nonempty, unrepeated, noOverlap, _⟩ := build_eq_ok_iff.mp built
    exact ⟨nonempty, firstRepeated_names_eq_none_iff.mp unrepeated,
      firstOverlap?_eq_none_iff.mp noOverlap⟩
  · intro consistent
    have unrepeated := firstRepeated_names_eq_none_iff.mpr consistent.names
    have noOverlap := firstOverlap?_eq_none_iff.mpr consistent.disjoint
    exact ⟨_, build_eq_ok_iff.mpr ⟨consistent.nonempty, unrepeated, noOverlap, rfl⟩⟩

/-- The index covers the shapes of the domain that some rule accepts. -/
theorem map_fst_indexOf (rules : List (Rule σ ι)) :
    (indexOf rules).map (·.1) =
      ShapeDomain.domain.filter fun shape => rules.any (·.guard shape) := by
  rw [indexOf, List.map_filterMap, ← List.filterMap_eq_filter]
  apply List.filterMap_congr
  intro shape _
  rw [Option.map_map, Option.guard_eq_ite, ← List.findIdx?_isSome]
  cases rules.findIdx? (·.guard shape) with
  | none => rfl
  | some position => rfl

variable [DecidableEq σ] {table table' : RuleTable σ ι}

omit [ShapeDomain σ] in
/-- Two tables give every shape the same rule, and all others the same fallback. The rules
may have other positions. -/
structure Alike (table table' : RuleTable σ ι) : Prop where
  rule : ∀ shape, (table.ruleFor? shape).map (·.2) = (table'.ruleFor? shape).map (·.2)
  fallback : table.fallback = table'.fallback

theorem rule_eq_some_iff (valid : table.Valid) {shape : σ} {rule : Rule σ ι} :
    (table.ruleFor? shape).map (·.2) = some rule ↔ table.Accepts shape rule := by
  rw [← valid.exists_ruleFor?_iff, Option.map_eq_some_iff]
  constructor
  · rintro ⟨⟨position, _⟩, found, rfl⟩
    exact ⟨position, found⟩
  · rintro ⟨position, found⟩
    exact ⟨(position, rule), found, rfl⟩

theorem alike_of_perm (perm : rules.Perm other) (built : build rules fallback = .ok table)
    (built' : build other fallback = .ok table') : table.Alike table' := by
  have valid := Valid.of_build built
  have valid' := Valid.of_build built'
  obtain ⟨_, _, _, rfl⟩ := build_eq_ok_iff.mp built
  obtain ⟨_, _, _, rfl⟩ := build_eq_ok_iff.mp built'
  refine ⟨?_, rfl⟩
  intro shape
  apply Option.ext
  intro rule
  rw [rule_eq_some_iff valid, rule_eq_some_iff valid']
  constructor
  · rintro ⟨listed, member, holds⟩
    exact ⟨listed, perm.mem_iff.mp member, holds⟩
  · rintro ⟨listed, member, holds⟩
    exact ⟨listed, perm.mem_iff.mpr member, holds⟩

theorem covered_of_perm (perm : rules.Perm other) (built : build rules fallback = .ok table)
    (built' : build other fallback = .ok table') : table.covered = table'.covered := by
  obtain ⟨_, _, _, rfl⟩ := build_eq_ok_iff.mp built
  obtain ⟨_, _, _, rfl⟩ := build_eq_ok_iff.mp built'
  have same : (indexOf rules).map (·.1) = (indexOf other).map (·.1) := by
    rw [map_fst_indexOf, map_fst_indexOf]
    apply List.filter_congr
    intro shape _
    exact perm.any_eq
  rw [covered, covered, same]

end RuleTable

namespace InlineCache

variable [DecidableEq σ] {cache : InlineCache σ ι} {table : RuleTable σ ι}

/-- The same cache at another site, with another table. -/
def transplant (cache : InlineCache σ ι) (id : SiteId) (table : RuleTable σ ι) :
    InlineCache σ ι :=
  { cache with site := id, table }

/-- Another table makes no difference to a call if it is like the one before. -/
theorem select_transplant (alike : cache.table.Alike table) (id : SiteId) (shape : σ) :
    (cache.transplant id table).select shape =
      ((cache.select shape).1, (cache.select shape).2.transplant id table) := by
  have rule := alike.rule shape
  cases found : cache.find? shape with
  | some entry =>
      have found' : (cache.transplant id table).find? shape = some entry := found
      rw [select_of_find?_eq_some found, select_of_find?_eq_some found']
      rfl
  | none =>
      have found' : (cache.transplant id table).find? shape = none := found
      cases ruled : cache.table.ruleFor? shape with
      | none =>
          rw [ruled, Option.map_none, eq_comm, Option.map_eq_none_iff] at rule
          have ruled' : (cache.transplant id table).table.ruleFor? shape = none := rule
          rw [select_of_ruleFor?_eq_none found ruled, select_of_ruleFor?_eq_none found' ruled',
            fallBack, fallBack, alike.fallback]
          rfl
      | some entry =>
          rw [ruled, Option.map_some, eq_comm, Option.map_eq_some_iff] at rule
          obtain ⟨⟨position, _⟩, ruled', rfl⟩ := rule
          have ruled' : (cache.transplant id table).table.ruleFor? shape = _ := ruled'
          by_cases full : cache.limit ≤ cache.entries.length
          · have full' : (cache.transplant id table).limit ≤
                (cache.transplant id table).entries.length := full
            rw [select_of_full found ruled full, select_of_full found' ruled' full', fallBack,
              fallBack, alike.fallback]
            rfl
          · have room := Nat.lt_of_not_le full
            have room' : (cache.transplant id table).entries.length <
                (cache.transplant id table).limit := room
            rw [select_of_room found ruled room, select_of_room found' ruled' room']
            rfl

/-- Nor does it make a difference to a run. -/
theorem run_transplant (alike : cache.table.Alike table) (id : SiteId) (run : List σ) :
    (cache.transplant id table).answers run = cache.answers run ∧
      (cache.transplant id table).after run = (cache.after run).transplant id table := by
  induction run generalizing cache with
  | nil => exact ⟨rfl, rfl⟩
  | cons shape run ih =>
      have alike' : (cache.select shape).2.table.Alike table := by
        rw [select_table]
        exact alike
      obtain ⟨answers_eq, after_eq⟩ := ih alike'
      rw [answers, answers, after_cons, after_cons, select_transplant alike]
      exact ⟨congrArg _ answers_eq, after_eq⟩

/-- The order of the rules does not matter. A list of rules is accepted exactly if its
permutations are. Then their tables give every shape the same rule and cover as many shapes.
New caches over the two tables with the same limit give the same answers to every run, and
end up with the same entries, flag, counters and profile. -/
theorem rule_order_irrelevant [ShapeDomain σ] {rules other : List (Rule σ ι)}
    (perm : rules.Perm other) (fallback : ι) :
    ((∃ table, RuleTable.build rules fallback = .ok table) ↔
        ∃ table, RuleTable.build other fallback = .ok table) ∧
      ∀ table table', RuleTable.build rules fallback = .ok table →
        RuleTable.build other fallback = .ok table' →
        (∀ shape, (table.ruleFor? shape).map (·.2) = (table'.ruleFor? shape).map (·.2)) ∧
          table.covered = table'.covered ∧
          ∀ (site site' : SiteId) (limit : Nat) (run : List σ),
            (new site table limit).answers run = (new site' table' limit).answers run ∧
              ((new site table limit).after run).entries =
                ((new site' table' limit).after run).entries ∧
              ((new site table limit).after run).saturated =
                ((new site' table' limit).after run).saturated ∧
              ((new site table limit).after run).counts =
                ((new site' table' limit).after run).counts ∧
              ((new site table limit).after run).profile =
                ((new site' table' limit).after run).profile := by
  constructor
  · rw [RuleTable.exists_build_iff, RuleTable.exists_build_iff]
    exact ⟨fun consistent => consistent.perm perm, fun consistent => consistent.perm perm.symm⟩
  · intro table table' built built'
    have alike := RuleTable.alike_of_perm perm built built'
    refine ⟨alike.rule, RuleTable.covered_of_perm perm built built', ?_⟩
    intro site site' limit run
    have start : (new site table limit).table.Alike table' := alike
    obtain ⟨answers, after⟩ := run_transplant start site' run
    have exchanged : (new site table limit).transplant site' table' = new site' table' limit :=
      rfl
    rw [exchanged] at answers after
    rw [answers, after]
    exact ⟨rfl, rfl, rfl, rfl, rfl⟩

theorem rule_order_irrelevant_slots :
    let last : Rule (Fin 6) String := ⟨"last", (· == 5), "far"⟩
    let low : Rule (Fin 6) String := ⟨"low", fun slot => decide (slot.val < 2), "near"⟩
    [low, last].Perm [last, low] ∧
      ∃ table table', RuleTable.build [low, last] "any" = .ok table ∧
        RuleTable.build [last, low] "any" = .ok table' ∧
        table.ruleFor? 5 = some (1, last) ∧ table'.ruleFor? 5 = some (0, last) ∧
        (new ⟨0⟩ table 1).answers [5, 0, 3, 5] = (new ⟨1⟩ table' 1).answers [5, 0, 3, 5] := by
  intro last low
  have perm : [low, last].Perm [last, low] := .swap last low []
  have irrelevant := (rule_order_irrelevant perm "any").2 _ _ rfl rfl
  exact ⟨perm, _, _, rfl, rfl, rfl, rfl, (irrelevant.2.2 ⟨0⟩ ⟨1⟩ 1 [5, 0, 3, 5]).1⟩

end InlineCache

end AdaptiveDispatch
