import AdaptiveDispatch.Dispatch.Shape
import AdaptiveDispatch.Fault

/-!
# Rule tables

A rule has a name, a guard over shapes and an implementation. A table is a list of rules
whose guards are disjoint, with a fallback for the shapes that none of them accepts.

`RuleTable.build` checks the rules before it looks anything up: an empty list, then a
repeated name, then two guards that accept one shape. A table it accepts carries an
index from each accepted shape to the position of its rule, so that `ruleFor?` consults
no guard.
-/

namespace AdaptiveDispatch

structure Rule (σ ι : Type) where
  name : String
  guard : σ → Bool
  implementation : ι

structure RuleTable (σ ι : Type) where
  rules : List (Rule σ ι)
  index : List (σ × Nat)
  fallback : ι

namespace RuleTable

variable {σ ι : Type} [DecidableEq σ]

/-- The first name that already occurred before, among those seen or earlier in the
list. -/
def firstRepeated (seen : List String) : List String → Option String
  | [] => none
  | name :: rest =>
      if name ∈ seen then some name else firstRepeated (name :: seen) rest

/-- The names of the first two rules that both accept a shape. -/
def overlapAt? (rules : List (Rule σ ι)) (shape : σ) : Option (String × String) :=
  match rules.filter (·.guard shape) with
  | first :: second :: _ => some (first.name, second.name)
  | _ => none

variable [ShapeDomain σ]

/-- The first shape of the domain that two rules accept, as a fault. -/
def firstOverlap? (rules : List (Rule σ ι)) : Option Fault.Setup :=
  (ShapeDomain.domain (σ := σ)).findSome? fun shape =>
    (overlapAt? rules shape).map fun (first, second) =>
      .overlappingGuards (ShapeDomain.label shape) first second

/-- The position of the rule for each shape of the domain that some rule accepts. -/
def indexOf (rules : List (Rule σ ι)) : List (σ × Nat) :=
  ShapeDomain.domain.filterMap fun shape =>
    (rules.findIdx? (·.guard shape)).map fun position => (shape, position)

/-- A table of the rules, unless there are none, a name is declared twice or two guards
overlap. -/
def build (rules : List (Rule σ ι)) (fallback : ι) : Except Fault.Setup (RuleTable σ ι) :=
  if rules.isEmpty then
    .error .emptyTable
  else
    match firstRepeated [] (rules.map (·.name)) with
    | some name => .error (.duplicateRule name)
    | none =>
        match firstOverlap? rules with
        | some fault => .error fault
        | none => .ok ⟨rules, indexOf rules, fallback⟩

omit [ShapeDomain σ]

/-- The rule accepting a shape, with its position in the table. -/
def ruleFor? (table : RuleTable σ ι) (shape : σ) : Option (Nat × Rule σ ι) := do
  let position ← table.index.lookup shape
  let rule ← table.rules[position]?
  return (position, rule)

/-- The number of shapes that some rule accepts. -/
def covered (table : RuleTable σ ι) : Nat :=
  (table.index.map (·.1)).eraseDups.length

end RuleTable

end AdaptiveDispatch
