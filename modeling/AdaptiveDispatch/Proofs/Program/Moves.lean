import AdaptiveDispatch.Proofs.Engine.Clients
import AdaptiveDispatch.Proofs.Loop.Runs
import AdaptiveDispatch.Program.Run

/-!
# What programs do to the engine

The methods of a script call back into the engine, and the statements of a program coerce and
read at its sites, in loops and under handlers. All this comes down to moves of the engine
(`Reaches`), so what any moves keep is kept by every program.
-/

namespace AdaptiveDispatch

namespace Engine

/-- Some moves lead from an engine to another. -/
def Reaches (engine next : Engine) : Prop :=
  ∃ moves : List (Move ScriptState), next = engine.moved moves

variable {α : Type} {engine next last : Engine} {id : SiteId} {a : α}

theorem Reaches.refl (engine : Engine) : engine.Reaches engine :=
  ⟨[], rfl⟩

theorem Reaches.trans (first : engine.Reaches next) (rest : next.Reaches last) :
    engine.Reaches last := by
  obtain ⟨moves, rfl⟩ := first
  obtain ⟨more, rfl⟩ := rest
  exact ⟨moves ++ more, (engine.moved_append moves more).symm⟩

theorem reaches_of_create {kind : Site.Kind} (made : engine.create kind = .ok (id, next)) :
    engine.Reaches next :=
  ⟨[.create kind], (move_create (τ := ScriptState) made).symm⟩

/-- A use of a coercion site is a move if it changes the site as a move does. -/
theorem reaches_of_useCoercion {use : CoercionSite → α × CoercionSite}
    (move : Site.Move ScriptState)
    (moves : ∀ site, (Site.coercion site).move move = .coercion (use site).2)
    (used : engine.useCoercion id use = some (a, next)) : engine.Reaches next := by
  obtain ⟨site, there, rfl⟩ := useCoercion_eq_some used
  rw [← moves]
  exact ⟨[.touch id move], (move_touch there move).symm⟩

theorem reaches_of_useSequence {use : SequenceSite → α × SequenceSite} (as : SequenceSite.Use)
    (same : ∀ site, (use site).2 = (site.perform as).2)
    (used : engine.useSequence id use = some (a, next)) : engine.Reaches next := by
  rw [useSequence] at used
  split at used
  · rename_i site there
    cases used
    rw [same]
    exact ⟨[.touch id (.perform (.sequence as))],
      (move_touch there (.perform (.sequence as))).symm⟩
  · cases used

/-- The two halves of a coercion are moves. -/
theorem reaches_of_start {v : Value} {strict : Bool} {progress : CoercionSite.Progress}
    (started : engine.useCoercion id (·.start v strict) = some (progress, next)) :
    engine.Reaches next :=
  reaches_of_useCoercion (.start v strict) (fun _ => rfl) started

theorem reaches_of_resume {v : Value} {reply : Reply} {result : Coerced}
    (resumed : engine.useCoercion id (·.resume v reply) = some (result, next)) :
    engine.Reaches next :=
  reaches_of_useCoercion (.resume v reply) (fun _ => rfl) resumed

end Engine

namespace Script

/-- Methods of a script only move the engine. -/
theorem reaches_call (script : Script) (receiver : Value) (method : String)
    (arguments : List Value) (state : Engine × ScriptState) :
    state.1.Reaches (script.call receiver method arguments state).2.1 := by
  -- The last three cases coerce a field at a site; in the others the engine is left alone.
  fun_induction Script.call with
  | case1 | case2 | case3 | case4 | case5 | case6 | case7 | case8 => exact .refl _
  | case9 =>
      rename_i started
      exact Engine.reaches_of_start started
  | case10 =>
      rename_i started _ _ _ called _ ih
      rw [called] at ih
      exact (Engine.reaches_of_start started).trans ih
  | case11 =>
      rename_i started _ _ _ called _ _ resumed ih
      rw [called] at ih
      exact ((Engine.reaches_of_start started).trans ih).trans (Engine.reaches_of_resume resumed)

theorem reaches_invoker (script : Option Script) (receiver : Value) (method : String)
    (arguments : List Value) (state : Engine × ScriptState) :
    state.1.Reaches (Script.invoker script receiver method arguments state).2.1 := by
  cases script with
  | none => exact .refl state.1
  | some script => exact script.reaches_call receiver method arguments state

end Script

namespace Machine

variable {m m' : Machine}

theorem engine_of_spend? (paid : m.spend? = some m') : m'.engine = m.engine := by
  rw [spend?] at paid
  split at paid
  · cases paid
  · cases paid
    rfl

/-- Expressions and conditions have nothing to do with the engine. -/
theorem engine_eval : ∀ (e : Expr) (m : Machine), (e.eval m).2.engine = m.engine
  | .constant _, _ => rfl
  | .variable _, _ => rfl
  | .add left right, m => (engine_eval right (left.eval m).2).trans (engine_eval left m)

theorem engine_evalAll (items : List Expr) (m : Machine) :
    (Expr.evalAll items m).2.engine = m.engine := by
  induction items generalizing m with
  | nil => rfl
  | cons e rest ih => exact (ih (e.eval m).2).trans (engine_eval e m)

theorem engine_test (condition : Condition) (m : Machine) :
    (condition.test m).2.engine = m.engine := by
  induction condition generalizing m with
  | literal holds =>
      rw [Condition.test]
      split
      · rfl
      · rename_i paid
        exact engine_of_spend? paid
  | less left right | equal left right =>
      rw [Condition.test]
      split
      · rfl
      · rename_i m₁ paid
        exact ((engine_eval right _).trans (engine_eval left m₁)).trans (engine_of_spend? paid)
  | not condition ih =>
      rw [Condition.test]
      split
      · rfl
      · rename_i m₁ paid
        have same := (ih m₁).trans (engine_of_spend? paid)
        dsimp only
        split
        all_goals
          rename_i tested
          rw [tested] at same
          exact same
  | countBelow name limit =>
      rw [Condition.test]
      split
      · rfl
      · rename_i m₁ paid
        have same := engine_of_spend? paid
        exact (engine_eval limit _).trans same
  | raise text =>
      rw [Condition.test]
      split
      · rfl
      · rename_i paid
        exact engine_of_spend? paid

theorem reaches_coerce (m : Machine) (site : SiteId) (v : Value) (strict : Bool)
    (script : Option Script) : m.engine.Reaches (m.coerce site v strict script).2.engine := by
  rw [coerce]
  split
  · exact .refl m.engine
  · rename_i result engine state coerced
    have reached : m.engine.Reaches engine :=
      Engine.coerceAt_moves (fun name state => Script.reaches_invoker script v name [] state) coerced
    cases result with
    | ok n => exact reached
    | error cause => exact reached

theorem reaches_useSequence {α : Type} (m : Machine) (site : SiteId)
    {use : SequenceSite → Except Fault.Storage α × SequenceSite} (as : SequenceSite.Use)
    (same : ∀ site, (use site).2 = (site.perform as).2) :
    m.engine.Reaches (m.useSequence site use).2.engine := by
  rw [useSequence]
  split
  · exact .refl m.engine
  · rename_i used
    exact Engine.reaches_of_useSequence as same used

theorem reaches_items (m : Machine) (items : Items) :
    m.engine.Reaches (m.items items).2.engine := by
  cases items with
  | written items =>
      show m.engine.Reaches (Expr.evalAll items m).2.engine
      rw [engine_evalAll]
      exact .refl m.engine
  | elements register site => exact m.reaches_useSequence site (.copyAll _) fun _ => rfl

/-- Loops only move the engine if their bodies do. -/
theorem reaches_whileDo {condition : Condition} {body : Machine → Completion × Machine} {bound : Nat}
    {result : Except Fault Value} (moves : ∀ m : Machine, m.engine.Reaches (body m).2.engine)
    (returned : Loop.whileDo (fun m => some (condition.test m)) (fun m => some (body m)) bound m =
      some (result, m')) : m.engine.Reaches m'.engine := by
  refine (Loop.Whiles.of_whileDo returned).stays (R := fun m m' : Machine => m.engine.Reaches m'.engine)
    (fun _ _ _ => .trans) ?_ ?_
  · intro m answer m' tested
    obtain rfl : (condition.test m).2 = m' := congrArg Prod.snd (Option.some.inj tested)
    rw [engine_test]
    exact .refl m.engine
  · intro m completion m' ran
    obtain rfl : (body m).2 = m' := congrArg Prod.snd (Option.some.inj ran)
    exact moves m

theorem reaches_each {body : Value → Machine → Completion × Machine} {bound : Nat}
    {values : List Value} {result : Except Fault Loop.Outcome}
    (moves : ∀ (v : Value) (m : Machine), m.engine.Reaches (body v m).2.engine)
    (returned : Loop.each (fun v m => some (body v m)) bound values m = some (result, m')) :
    m.engine.Reaches m'.engine := by
  refine (Loop.Visits.of_each returned).stays (R := fun m m' : Machine => m.engine.Reaches m'.engine)
    (fun m => .refl m.engine) (fun _ _ _ => .trans) ?_
  intro v m completion m' ran
  obtain rfl : (body v m).2 = m' := congrArg Prod.snd (Option.some.inj ran)
  exact moves v m

theorem reaches_rescuing {ended : Completion × Machine}
    {handler : Fault → Machine → Completion × Machine} (ran : m.engine.Reaches ended.2.engine)
    (moves : ∀ (fault : Fault) (m : Machine), m.engine.Reaches (handler fault m).2.engine) :
    m.engine.Reaches (rescuing ended handler).2.engine := by
  match ended with
  | (.ok value, m₁) => exact ran
  | (.error (.signal signal), m₁) => exact ran
  | (.error (.fault fault), m₁) => exact ran.trans (moves fault m₁)

mutual

/-- A statement only moves the engine. -/
theorem reaches_stmt (statement : Stmt) (m : Machine) :
    m.engine.Reaches (statement.run m).2.engine := by
  rw [Stmt.run]
  cases paid : m.spend? with
  | none => exact .refl m.engine
  | some m₁ =>
      rw [← engine_of_spend? paid]
      cases statement with
      | value e | set name e | trace e | next e | leave e =>
          show m₁.engine.Reaches (e.eval m₁).2.engine
          rw [engine_eval]
          exact .refl m₁.engine
      | increment name | redo | raise text => exact .refl m₁.engine
      | ifElse condition yes no =>
          rw [← engine_test condition m₁]
          dsimp only
          match condition.test m₁ with
          | (.error fault, m₂) => exact .refl m₂.engine
          | (.ok true, m₂) => exact reaches_block yes m₂
          | (.ok false, m₂) => exact reaches_block no m₂
      | coerce site e strict script =>
          rw [← engine_eval e m₁]
          exact reaches_coerce (e.eval m₁).2 site (e.eval m₁).1 strict script
      | read site register index => exact m₁.reaches_useSequence site (.read _ index) fun _ => rfl
      | whileDo condition body =>
          dsimp only
          split
          · exact .refl m₁.engine
          · rename_i returned
            exact reaches_whileDo (reaches_block body) returned
      | each name items body =>
          have found := m₁.reaches_items items
          have moves := fun v (m : Machine) => reaches_block body (m.set name v)
          dsimp only
          generalize m₁.items items = result at found ⊢
          match result with
          | (.error fault, m₂) => exact found
          | (.ok values, m₂) =>
              dsimp only at found ⊢
              split
              · exact found
              all_goals
                rename_i returned
                have rest := reaches_each moves returned
                exact found.trans rest
      | rescue body handler reraise =>
          refine reaches_rescuing (reaches_block body m₁) ?_
          intro fault m
          cases reraise with
          | true => exact .refl m.engine
          | false => exact reaches_block handler (m.record [.rescued fault])

theorem reaches_block (block : Block) (m : Machine) :
    m.engine.Reaches (Block.run block m).2.engine := by
  match block with
  | [] => exact .refl m.engine
  | [last] => exact reaches_stmt last m
  | first :: second :: rest =>
      have started := reaches_stmt first m
      show m.engine.Reaches (match first.run m with
        | (.ok _, m) => Block.run (second :: rest) m
        | (.error abrupt, m) => (.error abrupt, m)).2.engine
      generalize first.run m = ended at started ⊢
      match ended with
      | (.ok value, m₁) => exact started.trans (reaches_block (second :: rest) m₁)
      | (.error abrupt, m₁) => exact started

end

end Machine

end AdaptiveDispatch
