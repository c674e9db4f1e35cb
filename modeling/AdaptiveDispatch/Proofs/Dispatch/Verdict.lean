import AdaptiveDispatch.Proofs.Dispatch.Order

/-!
# Why a list of rules is refused

A list of rules may be faulty in several ways at once, and `RuleTable.build` reports one of
them. An `Objection` is what there is to report: that there are no rules, or else the first
rule whose name was declared before it, or else, when all names differ, the first shape of
the domain with two rules, and the first two of its rules.

The list is refused for its objection and for nothing else, and is accepted when there is
none. Guards are looked at only after the names, and shapes in the order of the domain.
-/

namespace AdaptiveDispatch.RuleTable

variable {σ ι : Type} {rules : List (Rule σ ι)} {shape : σ}

/-- No two rules of a list accept a shape. -/
def Undisputed (rules : List (Rule σ ι)) (shape : σ) : Prop :=
  rules.Pairwise fun rule other => ¬(rule.guard shape = true ∧ other.guard shape = true)

/-- Two rules of a list accept a shape, and of the rules up to the second of them no other
one does. -/
structure Disputed (rules : List (Rule σ ι)) (shape : σ) (first second : Rule σ ι) : Prop where
  placed : ∃ before between after, rules = before ++ first :: between ++ second :: after ∧
    ∀ rule ∈ before ++ between, rule.guard shape = false
  first_holds : first.guard shape = true
  second_holds : second.guard shape = true

theorem Disputed.ne_nil {first second : Rule σ ι} (disputed : Disputed rules shape first second) :
    rules ≠ [] := by
  obtain ⟨before, between, after, rfl, _⟩ := disputed.placed
  simp

theorem overlapAt?_eq_none_iff_undisputed :
    overlapAt? rules shape = none ↔ Undisputed rules shape := by
  have apart : Undisputed rules shape ↔
      (rules.filter (·.guard shape)).Pairwise fun _ _ => False := by
    rw [List.pairwise_filter, Undisputed]
    simp only [not_and, imp_false]
  rw [overlapAt?_eq_none_iff, apart]
  cases rules.filter (·.guard shape) with
  | nil => simp
  | cons first rest =>
      cases rest with
      | nil => simp
      | cons second rest =>
          constructor
          · intro short
            simp at short
          · intro pairwise
            exact (List.rel_of_pairwise_cons pairwise List.mem_cons_self).elim

/-- A search for the rules that accept a shape comes first upon the two that dispute it. -/
theorem filter_eq_cons_cons_iff {first second : Rule σ ι} :
    (∃ rest, rules.filter (·.guard shape) = first :: second :: rest) ↔
      Disputed rules shape first second := by
  constructor
  · rintro ⟨rest, found⟩
    obtain ⟨before, tail, rfl, silent, holds, found⟩ := List.filter_eq_cons_iff.mp found
    obtain ⟨between, after, rfl, silent', holds', _⟩ := List.filter_eq_cons_iff.mp found
    refine ⟨⟨before, between, after, by simp, ?_⟩, holds, holds'⟩
    intro rule member
    rcases List.mem_append.mp member with member | member
    · exact Bool.eq_false_iff.mpr (silent rule member)
    · exact Bool.eq_false_iff.mpr (silent' rule member)
  · rintro ⟨⟨before, between, after, rfl, silent⟩, holds, holds'⟩
    have passed : ∀ part : List (Rule σ ι), (∀ rule ∈ part, rule ∈ before ++ between) →
        part.filter (·.guard shape) = [] := by
      intro part within
      rw [List.filter_eq_nil_iff]
      intro rule member
      exact Bool.eq_false_iff.mp (silent rule (within rule member))
    refine ⟨after.filter (·.guard shape), ?_⟩
    simp only [List.filter_append, List.filter_cons, holds, holds', if_true,
      passed before (fun _ => List.mem_append_left _),
      passed between (fun _ => List.mem_append_right _), List.nil_append, List.cons_append]

theorem overlapAt?_eq_some_iff {names : String × String} :
    overlapAt? rules shape = some names ↔
      ∃ first second, Disputed rules shape first second ∧ names = (first.name, second.name) := by
  simp only [← filter_eq_cons_cons_iff]
  unfold overlapAt?
  split
  · rename_i first second rest found
    rw [found]
    constructor
    · rintro ⟨⟩
      exact ⟨first, second, ⟨rest, rfl⟩, rfl⟩
    · rintro ⟨_, _, ⟨_, same⟩, rfl⟩
      cases same
      rfl
  · rename_i few
    constructor
    · rintro ⟨⟩
    · rintro ⟨first, second, ⟨rest, found⟩, _⟩
      exact absurd found (few first second rest)

/-- What is found repeated is the first name that occurred before, in the list or among
those seen earlier. -/
theorem firstRepeated_eq_some_iff {seen names : List String} {name : String} :
    firstRepeated seen names = some name ↔
      ∃ before after, names = before ++ name :: after ∧ firstRepeated seen before = none ∧
        (name ∈ seen ∨ name ∈ before) := by
  induction names generalizing seen with
  | nil => simp [firstRepeated]
  | cons head rest ih =>
      by_cases known : head ∈ seen
      · have stops : ∀ names, firstRepeated seen (head :: names) = some head := by
          intro names
          rw [firstRepeated, if_pos known]
        rw [stops, Option.some.injEq]
        constructor
        · rintro rfl
          exact ⟨[], rest, rfl, rfl, Or.inl known⟩
        · rintro ⟨before, after, split, unrepeated, _⟩
          cases before with
          | nil => exact (List.cons.inj split).1
          | cons other before =>
              cases split
              rw [stops] at unrepeated
              cases unrepeated
      · have goes_on : ∀ names, firstRepeated seen (head :: names) =
            firstRepeated (head :: seen) names := by
          intro names
          rw [firstRepeated, if_neg known]
        have moved : ∀ before : List String, name ∈ head :: seen ∨ name ∈ before ↔
            name ∈ seen ∨ name ∈ head :: before := by
          intro before
          rw [List.mem_cons, List.mem_cons, or_assoc, or_left_comm]
        rw [goes_on, ih]
        constructor
        · rintro ⟨before, after, rfl, unrepeated, earlier⟩
          exact ⟨head :: before, after, rfl, (goes_on before).trans unrepeated,
            (moved before).mp earlier⟩
        · rintro ⟨before, after, split, unrepeated, earlier⟩
          cases before with
          | nil =>
              cases split
              exact absurd earlier (by simpa using known)
          | cons other before =>
              cases split
              exact ⟨before, after, rfl, (goes_on before).symm.trans unrepeated,
                (moved before).mpr earlier⟩

/-- Among the names of rules, the repeated one belongs to the first rule whose name an
earlier rule has. -/
theorem firstRepeated_names_eq_some_iff {name : String} :
    firstRepeated [] (rules.map (·.name)) = some name ↔
      ∃ before rule after, rules = before ++ rule :: after ∧ (before.map (·.name)).Nodup ∧
        (∃ earlier ∈ before, earlier.name = rule.name) ∧ name = rule.name := by
  rw [firstRepeated_eq_some_iff]
  constructor
  · rintro ⟨_, _, split, unrepeated, earlier⟩
    obtain ⟨before, tail, rfl, rfl, same⟩ := List.map_eq_append_iff.mp split
    obtain ⟨rule, after, rfl, rfl, rfl⟩ := List.map_eq_cons_iff.mp same
    have member : rule.name ∈ before.map (·.name) := by simpa using earlier
    exact ⟨before, rule, after, rfl, firstRepeated_names_eq_none_iff.mp unrepeated,
      List.mem_map.mp member, rfl⟩
  · rintro ⟨before, rule, after, rfl, distinct, earlier, rfl⟩
    exact ⟨before.map (·.name), after.map (·.name), List.map_append,
      firstRepeated_names_eq_none_iff.mpr distinct, Or.inr (List.mem_map.mpr earlier)⟩

variable [ShapeDomain σ]

theorem firstOverlap?_eq_some_iff {fault : Fault.Setup} :
    firstOverlap? rules = some fault ↔
      ∃ earlier shape later first second, ShapeDomain.domain = earlier ++ shape :: later ∧
        (∀ other ∈ earlier, Undisputed rules other) ∧ Disputed rules shape first second ∧
        fault = .overlappingGuards (ShapeDomain.label shape) first.name second.name := by
  simp only [firstOverlap?, List.findSome?_eq_some_iff, Option.map_eq_some_iff,
    Option.map_eq_none_iff, overlapAt?_eq_none_iff_undisputed, overlapAt?_eq_some_iff]
  constructor
  · rintro ⟨earlier, shape, later, split, ⟨_, ⟨first, second, disputed, rfl⟩, rfl⟩, before⟩
    exact ⟨earlier, shape, later, first, second, split, before, disputed, rfl⟩
  · rintro ⟨earlier, shape, later, first, second, split, before, disputed, rfl⟩
    exact ⟨earlier, shape, later, split, ⟨_, ⟨first, second, disputed, rfl⟩, rfl⟩, before⟩

/-- What there is to report about a list of rules. -/
inductive Objection (rules : List (Rule σ ι)) : Fault.Setup → Prop
  | noRules (empty : rules = []) : Objection rules .emptyTable
  | repeatedName {before after : List (Rule σ ι)} {rule : Rule σ ι}
      (split : rules = before ++ rule :: after) (distinct : (before.map (·.name)).Nodup)
      (declared : ∃ earlier ∈ before, earlier.name = rule.name) :
      Objection rules (.duplicateRule rule.name)
  | twoRules {earlier later : List σ} {shape : σ} {first second : Rule σ ι}
      (distinct : (rules.map (·.name)).Nodup)
      (split : ShapeDomain.domain = earlier ++ shape :: later)
      (undisputed : ∀ other ∈ earlier, Undisputed rules other)
      (disputed : Disputed rules shape first second) :
      Objection rules (.overlappingGuards (ShapeDomain.label shape) first.name second.name)

/-- The checks of a build that has rules to look at. -/
theorem build_of_ne_nil (nonempty : rules ≠ []) (fallback : ι) :
    build rules fallback =
      match firstRepeated [] (rules.map (·.name)), firstOverlap? rules with
      | some name, _ => .error (.duplicateRule name)
      | none, some fault => .error fault
      | none, none => .ok ⟨rules, indexOf rules, fallback⟩ := by
  unfold build
  rw [if_neg (by simpa using nonempty)]
  cases firstRepeated [] (rules.map (·.name)) with
  | some name => rfl
  | none =>
      cases firstOverlap? rules with
      | some fault => rfl
      | none => rfl

theorem Objection.of_build {fallback : ι} {fault : Fault.Setup}
    (refused : build rules fallback = .error fault) : Objection rules fault := by
  by_cases empty : rules = []
  · subst empty
    cases refused
    exact .noRules rfl
  · rw [build_of_ne_nil empty] at refused
    cases repeated : firstRepeated [] (rules.map (·.name)) with
    | some name =>
        rw [repeated] at refused
        cases refused
        obtain ⟨before, rule, after, split, distinct, declared, rfl⟩ :=
          firstRepeated_names_eq_some_iff.mp repeated
        exact .repeatedName split distinct declared
    | none =>
        have distinct := firstRepeated_names_eq_none_iff.mp repeated
        cases overlap : firstOverlap? rules with
        | some found =>
            rw [repeated, overlap] at refused
            cases refused
            obtain ⟨earlier, shape, later, first, second, split, undisputed, disputed, rfl⟩ :=
              firstOverlap?_eq_some_iff.mp overlap
            exact .twoRules distinct split undisputed disputed
        | none =>
            rw [repeated, overlap] at refused
            cases refused

theorem Objection.build_eq_error {fault : Fault.Setup} (objection : Objection rules fault)
    (fallback : ι) : build rules fallback = .error fault := by
  cases objection with
  | noRules empty =>
      subst empty
      rfl
  | repeatedName split distinct declared =>
      have nonempty : rules ≠ [] := by simp [split]
      have repeated := firstRepeated_names_eq_some_iff.mpr
        ⟨_, _, _, split, distinct, declared, rfl⟩
      rw [build_of_ne_nil nonempty, repeated]
  | twoRules distinct split undisputed disputed =>
      have unrepeated := firstRepeated_names_eq_none_iff.mpr distinct
      have overlap := firstOverlap?_eq_some_iff.mpr
        ⟨_, _, _, _, _, split, undisputed, disputed, rfl⟩
      rw [build_of_ne_nil disputed.ne_nil, unrepeated, overlap]

/-- A list of rules is accepted exactly if it is not empty, all names in it differ and no
shape of the domain is accepted by two rules. Otherwise there is one objection to it, and
this is what is reported. -/
theorem build_verdict (rules : List (Rule σ ι)) (fallback : ι) :
    ((∃ table, build rules fallback = .ok table) ↔
        rules ≠ [] ∧ (rules.map (·.name)).Nodup ∧
          ∀ shape ∈ ShapeDomain.domain, Undisputed rules shape) ∧
      ∀ fault, build rules fallback = .error fault ↔ Objection rules fault := by
  constructor
  · rw [exists_build_iff]
    simp only [← overlapAt?_eq_none_iff_undisputed, overlapAt?_eq_none_iff]
    constructor
    · rintro ⟨nonempty, names, disjoint⟩
      exact ⟨nonempty, names, disjoint⟩
    · rintro ⟨nonempty, names, disjoint⟩
      exact ⟨nonempty, names, disjoint⟩
  · intro fault
    exact ⟨Objection.of_build, fun objection => objection.build_eq_error fallback⟩

/-- The last two rules have one name, and the first two accept one slot. -/
example :
    let low : Rule (Fin 6) String := ⟨"low", fun slot => decide (slot.val < 2), "near"⟩
    let even : Rule (Fin 6) String := ⟨"even", fun slot => decide (slot.val % 2 = 0), "near"⟩
    let last : Rule (Fin 6) String := ⟨"last", (· == 5), "far"⟩
    build [low, even, last, last] "any" = .error (.duplicateRule "last") ∧
      build [last, even, low] "any" = .error (.overlappingGuards "slot0" "even" "low") :=
  ⟨rfl, rfl⟩

end AdaptiveDispatch.RuleTable
