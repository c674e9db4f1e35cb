import AdaptiveDispatch.Proofs.Engine.Moves

/-!
# Sites of one engine do not interfere

All sites of an engine are in one registry, and many share a table. Still a site is only
changed by its own uses. The steps of those who use an engine are moves, so a site stays as it
is while others are used and further ones are made.

It follows that the answers and the state of a site are a function of the engine's
settings, of what the site was made for and of its own uses. Its number depends on how
many sites were made before it, and makes no difference.
-/

namespace AdaptiveDispatch.Engine

variable {τ : Type} {engine next : Engine} {id other : SiteId} {site : Site}

/-- A step of those who use an engine. -/
inductive Step (τ : Type) where
  | create (kind : Site.Kind)
  | perform (id : SiteId) (use : Site.Use τ)

/-- The engine after a step. A site that cannot be made leaves it as it was. -/
def step (engine : Engine) : Step τ → Engine
  | .create kind =>
      match engine.create kind with
      | .ok (_, engine) => engine
      | .error _ => engine
  | .perform id use => (engine.perform id use).2

/-- The engine after some steps. -/
def after (engine : Engine) (steps : List (Step τ)) : Engine :=
  steps.foldl step engine

/-- A step is a move. -/
def Step.move : Step τ → Move τ
  | .create kind => .create kind
  | .perform id use => .touch id (.perform use)

theorem step_eq_move (engine : Engine) (step : Step τ) :
    engine.step step = engine.move step.move := by
  cases step with
  | create kind => rfl
  | perform id use => exact engine.perform_move id use

theorem after_eq_moved (engine : Engine) (steps : List (Step τ)) :
    engine.after steps = engine.moved (steps.map Step.move) := by
  induction steps generalizing engine with
  | nil => rfl
  | cons step steps ih =>
      rw [List.map_cons, moved_cons, ← step_eq_move, ← ih]
      rfl

/-- The answers to the steps that address a number. -/
def answersAt (id : SiteId) (engine : Engine) : List (Step τ) → List (Option (Site.Answer τ))
  | [] => []
  | .create kind :: steps => (engine.step (.create kind : Step τ)).answersAt id steps
  | .perform other use :: steps =>
      let (answer, engine) := engine.perform other use
      if other = id then answer :: engine.answersAt id steps else engine.answersAt id steps

/-- The use that a step makes of a number. -/
def Step.use? (id : SiteId) : Step τ → Option (Site.Use τ)
  | .create _ => none
  | .perform other use => if other = id then some use else none

/-- The steps that address a number, as uses of a site. -/
def usesOf (id : SiteId) (steps : List (Step τ)) : List (Site.Use τ) :=
  steps.filterMap (Step.use? id)

theorem Step.use?_perform_eq_none_iff {use : Site.Use τ} :
    (Step.perform other use).use? id = none ↔ other ≠ id := by
  simp [Step.use?]

theorem Step.move_at?_of_use? {step : Step τ} (elsewhere : step.use? id = none) :
    step.move.at? id = none := by
  cases step with
  | create kind => rfl
  | perform other use => exact if_neg (use?_perform_eq_none_iff.mp elsewhere)

theorem Step.eq_perform_of_use? {step : Step τ} {use : Site.Use τ}
    (addressed : step.use? id = some use) : step = .perform id use := by
  cases step with
  | create kind => cases addressed
  | perform other use' =>
      obtain ⟨rfl, same⟩ := Option.ite_none_right_eq_some.mp addressed
      cases same
      rfl

theorem usesOf_perform (id : SiteId) (use : Site.Use τ) (steps : List (Step τ)) :
    usesOf id (.perform id use :: steps) = use :: usesOf id steps := by
  simp [usesOf, Step.use?]

theorem usesOf_of_other {step : Step τ} (elsewhere : step.use? id = none)
    (steps : List (Step τ)) : usesOf id (step :: steps) = usesOf id steps :=
  List.filterMap_cons_none elsewhere

theorem answersAt_perform (engine : Engine) (id : SiteId) (use : Site.Use τ)
    (steps : List (Step τ)) :
    engine.answersAt id (.perform id use :: steps) =
      (engine.perform id use).1 :: (engine.perform id use).2.answersAt id steps :=
  if_pos rfl

theorem answersAt_of_other {step : Step τ} (elsewhere : step.use? id = none) (engine : Engine)
    (steps : List (Step τ)) :
    engine.answersAt id (step :: steps) = (engine.step step).answersAt id steps := by
  cases step with
  | create kind => rfl
  | perform other use => exact if_neg (Step.use?_perform_eq_none_iff.mp elsewhere)

@[simp] theorem after_cons (engine : Engine) (step : Step τ) (steps : List (Step τ)) :
    engine.after (step :: steps) = (engine.step step).after steps := rfl

theorem after_append (engine : Engine) (steps more : List (Step τ)) :
    engine.after (steps ++ more) = (engine.after steps).after more :=
  List.foldl_append

/-- A new site is the same at any time. -/
theorem newSite_after (engine : Engine) (steps : List (Step τ)) :
    (engine.after steps).newSite = engine.newSite := by
  rw [after_eq_moved, newSite_moved]

/-- The steps of a run that address a site have the answers that it gives on its own, and
leave it in the state that they lead to on its own. -/
theorem run_of_site? (there : engine.site? id = some site) (steps : List (Step τ)) :
    engine.answersAt id steps = site.answers (usesOf id steps) ∧
      (engine.after steps).site? id = some (site.after (usesOf id steps)) := by
  induction steps generalizing engine site with
  | nil => exact ⟨rfl, there⟩
  | cons step steps ih =>
      cases addressed : step.use? id with
      | none =>
          rw [answersAt_of_other addressed, usesOf_of_other addressed]
          refine ih ?_
          rw [step_eq_move]
          exact site?_move_of_other there (Step.move_at?_of_use? addressed)
      | some use =>
          obtain rfl := Step.eq_perform_of_use? addressed
          obtain ⟨answers, state⟩ := ih (site?_put_self there (site.perform use).2)
          rw [usesOf_perform, answersAt_perform, after_cons, Engine.step, perform_of_site? there use]
          exact ⟨congrArg _ answers, state⟩

/-- Every site of an engine that had none was made by some step, and got its number
there. -/
theorem exists_create {steps : List (Step τ)} (absent : engine.site? id = none)
    (there : (engine.after steps).site? id = some site) :
    ∃ before kind later next, steps = before ++ .create kind :: later ∧
      (engine.after before).create kind = .ok (id, next) := by
  rw [after_eq_moved] at there
  obtain ⟨before, kind, later, next, same, made⟩ := exists_creation absent there
  obtain ⟨before, rest, rfl, rfl, tail⟩ := List.map_eq_append_iff.mp same
  obtain ⟨step, later, rfl, create, rfl⟩ := List.map_eq_cons_iff.mp tail
  rw [← after_eq_moved] at made
  cases step with
  | create kind' =>
      cases create
      exact ⟨before, kind, later, next, rfl, made⟩
  | perform id use => cases create

/-- A site that is made after some steps has, from then on, the answers and the state of a
new site of its kind that is used on its own. -/
theorem run_of_create {kind : Site.Kind} {before : List (Step τ)}
    (made : (engine.after before).create kind = .ok (id, next)) (later : List (Step τ)) :
    next.answersAt id later = (engine.newSite kind id).answers (usesOf id later) ∧
      (engine.after (before ++ .create kind :: later)).site? id =
        some ((engine.newSite kind id).after (usesOf id later)) := by
  have there := site?_create_self made
  rw [newSite_after] at there
  have reached : engine.after (before ++ .create kind :: later) = next.after later := by
    rw [after_append, after_cons]
    simp only [Engine.step, made]
  rw [reached]
  exact run_of_site? there later

/-- Sites of one engine do not interfere. Every site was made by a step of the run. Take
two runs, and in each of them a site that was made for the same. If the later steps that
address the sites are the same uses, they get the same answers, and the sites end up in
the same state apart from their numbers. Nothing else in the two runs has to agree. -/
theorem sites_independent {settings : Settings} (built : Engine.new settings = .ok engine) :
    (∀ (steps : List (Step τ)) (id : SiteId) (site : Site),
      (engine.after steps).site? id = some site →
        ∃ before kind later next, steps = before ++ .create kind :: later ∧
          (engine.after before).create kind = .ok (id, next)) ∧
      ∀ (kind : Site.Kind) (before later before' later' : List (Step τ)) (id id' : SiteId)
        (next next' : Engine),
        (engine.after before).create kind = .ok (id, next) →
        (engine.after before').create kind = .ok (id', next') →
        usesOf id later = usesOf id' later' →
          next.answersAt id later = next'.answersAt id' later' ∧
            ∃ site, (engine.after (before ++ .create kind :: later)).site? id = some site ∧
              (engine.after (before' ++ .create kind :: later')).site? id' =
                some (site.renumber id') := by
  constructor
  · intro steps id site there
    exact exists_create (site?_new built id) there
  · intro kind before later before' later' id id' next next' made made' same
    obtain ⟨answers, state⟩ := run_of_create made later
    obtain ⟨answers', state'⟩ := run_of_create made' later'
    obtain ⟨answers_eq, after_eq⟩ :=
      Site.run_renumber id' (engine.newSite kind id) (usesOf id later)
    rw [newSite_renumber] at answers_eq after_eq
    rw [answers, answers', state', ← same, answers_eq, after_eq]
    exact ⟨rfl, _, state, rfl⟩

/-- A coercion site on its own, and one among others, under another number. -/
theorem sites_independent_mixed :
    let conversions (width : Width) : RuleTable Value.Shape Conversion :=
      ⟨Conversion.rules width, RuleTable.indexOf (Conversion.rules width), .chain⟩
    let accesses : RuleTable Store.Kind Access :=
      ⟨Access.rules, RuleTable.indexOf Access.rules, .generic⟩
    let engine : Engine := ⟨{}, conversions .bits32, conversions .bits64, accesses, .empty⟩
    let narrow : Engine.Step Unit := .create (.coercion .bits32)
    let second : Engine.Step Unit := .create .sequence
    let unbox : Invoker Unit := fun _ _ _ t => (.returned (.long 4294967303), t)
    let coerce (id : SiteId) : Engine.Step Unit :=
      .perform id (.coercion (.coerce unbox (.object 0 "Box" []) false ()))
    let copy (id : SiteId) : Engine.Step Unit :=
      .perform id (.sequence (.copyAll (.ofValues [.nil, .int 2])))
    let among := [copy ⟨0⟩, coerce ⟨1⟩, narrow, coerce ⟨2⟩, copy ⟨1⟩, coerce ⟨1⟩]
    Engine.new {} = .ok engine ∧
      ∃ alone amongst, engine.create (.coercion .bits32) = .ok (⟨0⟩, alone) ∧
        (engine.after [second]).create (.coercion .bits32) = .ok (⟨1⟩, amongst) ∧
        alone.answersAt ⟨0⟩ [coerce ⟨0⟩, copy ⟨0⟩, coerce ⟨0⟩] = amongst.answersAt ⟨1⟩ among := by
  intro conversions accesses engine narrow second unbox coerce copy among
  have built : Engine.new {} = .ok engine := rfl
  refine ⟨built, _, _, rfl, rfl, ?_⟩
  exact ((sites_independent built).2 (.coercion .bits32) [] _ [second] among ⟨0⟩ ⟨1⟩
    _ _ rfl rfl rfl).1

end AdaptiveDispatch.Engine
