import AdaptiveDispatch.Proofs.Dispatch.Run
import AdaptiveDispatch.Proofs.Dispatch.Order
import Mathlib.Data.Finset.Card
import Mathlib.Data.Finset.Filter

/-!
# Looking up instead of asking the guards

A guard is asked about a shape once, when the table is built. After that the index answers
for the guards: it has an entry for a shape exactly if some guard accepts it, the entry leads
to the rule with that guard, and it never leads beyond the rules. There are as many shapes in
the index as the guards accept, each counted once, also if the domain lists some of them
several times.
-/

namespace AdaptiveDispatch.RuleTable

variable {σ ι : Type} [DecidableEq σ] [ShapeDomain σ]
variable {rules : List (Rule σ ι)} {fallback : ι} {table : RuleTable σ ι}

/-- An entry of the index leads to a rule. -/
theorem Valid.lt_of_lookup_index (valid : table.Valid) {shape : σ} {position : Nat}
    (entered : table.index.lookup shape = some position) : position < table.rules.length := by
  rw [valid.index_eq, lookup_indexOf] at entered
  split at entered
  · obtain ⟨bound, _⟩ := List.findIdx?_eq_some_iff_getElem.mp entered
    exact bound
  · cases entered

/-- The shapes of the index are those of the domain that come new to a cache. -/
theorem Valid.covered_eq (valid : table.Valid) :
    table.covered = (table.newcomers ShapeDomain.domain).length := by
  have same : (ShapeDomain.domain.filter fun shape => table.rules.any (·.guard shape)) =
      ShapeDomain.domain.filter table.accepted := by
    apply List.filter_congr
    intro shape listed
    simp [accepted, listed]
  rw [covered, valid.index_eq, map_fst_indexOf, same]
  rfl

theorem Valid.covered_eq_card (valid : table.Valid) :
    table.covered = (ShapeDomain.domain.toFinset.filter fun shape =>
      ∃ rule ∈ table.rules, rule.guard shape = true).card := by
  rw [valid.covered_eq, ← List.toFinset_card_of_nodup (table.nodup_newcomers _)]
  apply congrArg Finset.card
  ext shape
  rw [List.mem_toFinset, mem_newcomers, accepted_iff, Finset.mem_filter, List.mem_toFinset]
  constructor
  · rintro ⟨listed, rule, accepts⟩
    exact ⟨listed, rule, accepts.member, accepts.holds⟩
  · rintro ⟨listed, rule, member, holds⟩
    exact ⟨listed, rule, listed, member, holds⟩

/-- A table that was built finds a rule at a position exactly if this is the position of a
rule whose guard accepts the shape, and it finds none exactly if all guards refuse the shape.
No entry of its index leads beyond the rules, and it covers as many shapes as the guards
accept. -/
theorem lookup_follows_guards (built : build rules fallback = .ok table) :
    (∀ shape ∈ ShapeDomain.domain,
      (∀ position rule, table.ruleFor? shape = some (position, rule) ↔
        rules[position]? = some rule ∧ rule.guard shape = true) ∧
      (table.ruleFor? shape = none ↔ ∀ rule ∈ rules, rule.guard shape = false)) ∧
    (table.rules = rules ∧ ∀ shape position,
      table.index.lookup shape = some position → position < table.rules.length) ∧
    table.covered = (ShapeDomain.domain.toFinset.filter fun shape =>
      ∃ rule ∈ rules, rule.guard shape = true).card := by
  have valid := Valid.of_build built
  obtain ⟨_, _, _, made⟩ := build_eq_ok_iff.mp built
  have same : table.rules = rules := congrArg RuleTable.rules made
  have covered := valid.covered_eq_card
  rw [same] at covered
  refine ⟨?_, ⟨same, fun shape position => valid.lt_of_lookup_index⟩, covered⟩
  intro shape listed
  constructor
  · intro position rule
    rw [valid.ruleFor?_eq_some_iff, same]
    exact and_iff_right listed
  · rw [valid.ruleFor?_eq_none_iff, ← Bool.not_eq_true, accepted_iff, ← same]
    constructor
    · intro unaccepted rule member
      exact Bool.eq_false_of_not_eq_true fun holds => unaccepted ⟨rule, listed, member, holds⟩
    · rintro refused ⟨rule, _, member, holds⟩
      rw [refused rule member] at holds
      cases holds

/-- Of the six slots the first rule accepts two and the last rule one. -/
theorem lookup_follows_guards_slots :
    build slots.rules "any" = .ok slots ∧
      (slots.ruleFor? 5).map (·.1) = some 1 ∧ slots.ruleFor? 3 = none ∧ slots.covered = 3 := by
  have built : build slots.rules "any" = .ok slots := slots_valid
  obtain ⟨found, _, covered⟩ := lookup_follows_guards built
  refine ⟨built, ?_, ?_, ?_⟩
  · rw [((found 5 (by decide)).1 1 ⟨"last", (· == 5), "far"⟩).mpr ⟨rfl, rfl⟩]
    rfl
  · apply (found 3 (by decide)).2.mpr
    decide
  · rw [covered]
    decide

end AdaptiveDispatch.RuleTable
