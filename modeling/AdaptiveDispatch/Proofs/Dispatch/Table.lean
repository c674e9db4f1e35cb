import AdaptiveDispatch.Dispatch.Table

/-!
# What a built table looks up

`RuleTable.build` computes the index of a table once, and every later lookup trusts it.
Here the index is compared with the guards. In a table that was built, `ruleFor?` finds
a rule exactly when the rule accepts the shape.

The domain only has to list shapes. Nothing is assumed about shapes that it leaves out:
they have no rule, whatever the guards say about them.
-/

namespace AdaptiveDispatch.RuleTable

variable {σ ι : Type} [ShapeDomain σ]
variable {rules : List (Rule σ ι)} {fallback : ι} {table : RuleTable σ ι} {shape : σ}

/-- A table that `build` makes of its own rules and fallback. -/
def Valid (table : RuleTable σ ι) : Prop :=
  build table.rules table.fallback = .ok table

/-- A rule of the table accepts a shape of the domain. -/
structure Accepts (table : RuleTable σ ι) (shape : σ) (rule : Rule σ ι) : Prop where
  listed : shape ∈ ShapeDomain.domain
  member : rule ∈ table.rules
  holds : rule.guard shape = true

/-- All that a successful build says about its rules and its result. -/
theorem build_eq_ok_iff :
    build rules fallback = .ok table ↔
      rules ≠ [] ∧ firstRepeated [] (rules.map (·.name)) = none ∧
        firstOverlap? rules = none ∧ table = ⟨rules, indexOf rules, fallback⟩ := by
  unfold build
  by_cases empty : rules.isEmpty
  · have : rules = [] := List.isEmpty_iff.mp empty
    simp [this]
  · have nonempty : rules ≠ [] := fun h => empty (List.isEmpty_iff.mpr h)
    rw [if_neg empty]
    cases firstRepeated [] (rules.map (·.name)) with
    | some name => simp
    | none =>
        cases firstOverlap? rules with
        | some fault => simp
        | none => simp [nonempty, eq_comm]

theorem Valid.of_build (built : build rules fallback = .ok table) : table.Valid := by
  obtain ⟨_, _, _, rfl⟩ := build_eq_ok_iff.mp built
  exact built

theorem Valid.index_eq (valid : table.Valid) : table.index = indexOf table.rules := by
  obtain ⟨_, _, _, same⟩ := build_eq_ok_iff.mp valid
  exact congrArg RuleTable.index same

omit [ShapeDomain σ] in
theorem overlapAt?_eq_none_iff :
    overlapAt? rules shape = none ↔ (rules.filter (·.guard shape)).length ≤ 1 := by
  rw [overlapAt?]
  cases rules.filter (·.guard shape) with
  | nil => simp
  | cons first rest =>
      cases rest with
      | nil => simp
      | cons second rest => simp

theorem firstOverlap?_eq_none_iff :
    firstOverlap? rules = none ↔
      ∀ shape ∈ ShapeDomain.domain, (rules.filter (·.guard shape)).length ≤ 1 := by
  simp only [firstOverlap?, List.findSome?_eq_none_iff, Option.map_eq_none_iff,
    overlapAt?_eq_none_iff]

/-- At most one rule of a built table accepts a given shape. -/
theorem Valid.length_filter_le (valid : table.Valid)
    (listed : shape ∈ ShapeDomain.domain) :
    (table.rules.filter (·.guard shape)).length ≤ 1 := by
  obtain ⟨_, _, noOverlap, _⟩ := build_eq_ok_iff.mp valid
  exact firstOverlap?_eq_none_iff.mp noOverlap shape listed

variable [DecidableEq σ]

/-- Whether some rule of the table accepts a shape. -/
def accepted (table : RuleTable σ ι) (shape : σ) : Bool :=
  decide (shape ∈ ShapeDomain.domain) && table.rules.any (·.guard shape)

theorem accepted_iff : table.accepted shape = true ↔ ∃ rule, table.Accepts shape rule := by
  simp only [accepted, Bool.and_eq_true, decide_eq_true_eq, List.any_eq_true]
  constructor
  · rintro ⟨listed, rule, member, holds⟩
    exact ⟨rule, listed, member, holds⟩
  · rintro ⟨rule, listed, member, holds⟩
    exact ⟨listed, rule, member, holds⟩

theorem Accepts.accepted {rule : Rule σ ι} (accepts : table.Accepts shape rule) :
    table.accepted shape = true :=
  accepted_iff.mpr ⟨rule, accepts⟩

/-- The index of a list of rules holds the first rule for each shape of the domain. -/
theorem lookup_indexOf (rules : List (Rule σ ι)) (shape : σ) :
    (indexOf rules).lookup shape =
      if shape ∈ ShapeDomain.domain then rules.findIdx? (·.guard shape) else none := by
  unfold indexOf
  induction (ShapeDomain.domain : List σ) with
  | nil => rfl
  | cons first rest ih =>
      by_cases same : first = shape
      · subst same
        cases found : rules.findIdx? (·.guard first) with
        | none =>
            rw [List.filterMap_cons_none (by rw [found]; rfl), ih, found]
            simp
        | some position =>
            rw [List.filterMap_cons_some (by rw [found]; rfl)]
            simp
      · cases found : rules.findIdx? (·.guard first) with
        | none =>
            rw [List.filterMap_cons_none (by rw [found]; rfl), ih]
            simp [Ne.symm same]
        | some position =>
            have differs : (shape == first) = false := beq_eq_false_iff_ne.mpr (Ne.symm same)
            rw [List.filterMap_cons_some (by rw [found]; rfl), List.lookup_cons, differs, ih]
            simp [Ne.symm same]

/-- Where a test singles out at most one element, searching finds that element. -/
private theorem findIdx?_of_single {α : Type} {p : α → Bool} {l : List α} {a : α} {i : Nat}
    (single : (l.filter p).length ≤ 1) (there : l[i]? = some a) (holds : p a = true) :
    l.findIdx? p = some i := by
  induction l generalizing i with
  | nil => simp at there
  | cons b rest ih =>
      cases hb : p b with
      | true =>
          rw [List.filter_cons_of_pos hb, List.length_cons] at single
          have none_left : rest.filter p = [] := List.length_eq_zero_iff.mp (by omega)
          cases i with
          | zero => simp [List.findIdx?_cons, hb]
          | succ i =>
              have member : a ∈ rest := List.mem_of_getElem? there
              exact absurd holds (List.filter_eq_nil_iff.mp none_left a member)
      | false =>
          rw [List.filter_cons_of_neg (by simp [hb])] at single
          cases i with
          | zero =>
              simp only [List.getElem?_cons_zero, Option.some.injEq] at there
              rw [there, holds] at hb
              cases hb
          | succ i => simp [List.findIdx?_cons, hb, ih single there]

/-- Lookup in a built table finds, of the domain, what the guards say. -/
theorem Valid.ruleFor?_eq_some_iff (valid : table.Valid) {position : Nat} {rule : Rule σ ι} :
    table.ruleFor? shape = some (position, rule) ↔
      shape ∈ ShapeDomain.domain ∧ table.rules[position]? = some rule ∧
        rule.guard shape = true := by
  have unfolded : table.ruleFor? shape =
      ((indexOf table.rules).lookup shape).bind fun position =>
        (table.rules[position]?).bind fun rule => some (position, rule) := by
    rw [← valid.index_eq]
    rfl
  rw [unfolded, lookup_indexOf]
  constructor
  · intro found
    split at found
    · rename_i listed
      obtain ⟨i, first, found⟩ := Option.bind_eq_some_iff.mp found
      obtain ⟨r, there, found⟩ := Option.bind_eq_some_iff.mp found
      cases found
      obtain ⟨bound, holds, _⟩ := List.findIdx?_eq_some_iff_getElem.mp first
      rw [List.getElem?_eq_getElem bound, Option.some.injEq] at there
      subst there
      exact ⟨listed, List.getElem?_eq_getElem bound, holds⟩
    · cases found
  · rintro ⟨listed, there, holds⟩
    rw [if_pos listed, findIdx?_of_single (valid.length_filter_le listed) there holds]
    simp [there]

/-- Lookup in a built table finds exactly the rules that accept. -/
theorem Valid.exists_ruleFor?_iff (valid : table.Valid) {rule : Rule σ ι} :
    (∃ position, table.ruleFor? shape = some (position, rule)) ↔
      table.Accepts shape rule := by
  constructor
  · rintro ⟨position, found⟩
    obtain ⟨listed, there, holds⟩ := valid.ruleFor?_eq_some_iff.mp found
    exact ⟨listed, List.mem_of_getElem? there, holds⟩
  · rintro ⟨listed, member, holds⟩
    obtain ⟨position, there⟩ := List.mem_iff_getElem?.mp member
    exact ⟨position, valid.ruleFor?_eq_some_iff.mpr ⟨listed, there, holds⟩⟩

theorem Valid.ruleFor?_eq_none_iff (valid : table.Valid) :
    table.ruleFor? shape = none ↔ table.accepted shape = false := by
  rw [← Bool.not_eq_true, accepted_iff]
  constructor
  · rintro unruled ⟨rule, accepts⟩
    obtain ⟨position, found⟩ := valid.exists_ruleFor?_iff.mpr accepts
    rw [unruled] at found
    cases found
  · intro unaccepted
    cases found : table.ruleFor? shape with
    | none => rfl
    | some entry =>
        exact absurd ⟨entry.2, valid.exists_ruleFor?_iff.mp ⟨entry.1, found⟩⟩ unaccepted

/-- A small table over six slots: one rule accepts the first two of them, one the last,
and the others have no rule. -/
def slots : RuleTable (Fin 6) String :=
  let rules := [⟨"low", fun slot => decide (slot.val < 2), "near"⟩, ⟨"last", (· == 5), "far"⟩]
  ⟨rules, indexOf rules, "any"⟩

theorem slots_valid : slots.Valid :=
  build_eq_ok_iff.mpr ⟨by decide, by decide, by decide, rfl⟩

end AdaptiveDispatch.RuleTable
