import AdaptiveDispatch.Proofs.Program.Moves
import AdaptiveDispatch.Session.Action

/-!
# What sessions do to their engine

A session makes sites and uses them, directly, in coercions with scripts and in programs. Its
actions only move its engine, so what any moves keep holds in every session.
-/

namespace AdaptiveDispatch

namespace Session

variable {α β : Type}

/-- The session after an action, whether it fails or not. -/
def after (session : Session) (action : Action α) : Session :=
  (action.run.run session).2

/-- An action that only moves the engine. -/
def Moves (action : Action α) : Prop :=
  ∀ session : Session, session.engine.Reaches (session.after action).engine

theorem moves_of_keeps {action : Action α}
    (keeps : ∀ session : Session, (session.after action).engine = session.engine) :
    Moves action := by
  intro session
  rw [keeps]
  exact .refl session.engine

theorem moves_pure (a : α) : Moves (pure a) :=
  moves_of_keeps fun _ => rfl

theorem after_bind (session : Session) (first : Action α) (rest : α → Action β) :
    session.after (first >>= rest) =
      match first.run.run session with
      | (.ok a, session) => session.after (rest a)
      | (.error _, session) => session := by
  rw [after, ExceptT.run_bind, StateT.run_bind]
  match first.run.run session with
  | (.ok a, session) => rfl
  | (.error fault, session) => rfl

theorem after_get (session : Session) (rest : Session → Action α) :
    session.after (get >>= rest) = session.after (rest session) := rfl

theorem Moves.bind {first : Action α} {rest : α → Action β} (moves : Moves first)
    (others : ∀ a, Moves (rest a)) : Moves (first >>= rest) := by
  intro session
  have started := moves session
  rw [after] at started
  rw [after_bind]
  generalize first.run.run session = result at started ⊢
  match result with
  | (.ok a, next) => exact started.trans (others a next)
  | (.error fault, next) => exact started

theorem moves_ofStorage (result : Except Fault.Storage α) : Moves (ofStorage result) :=
  moves_of_keeps fun _ => rfl

/-- Registers and identities are no part of the engine. -/
theorem moves_fill (name : String) (s : Sequence) : Moves (fill name s) :=
  moves_of_keeps fun _ => rfl

theorem moves_evalAll (constants : List Constant) : Moves (evalAll constants) :=
  moves_of_keeps fun _ => rfl

theorem moves_eval (constant : Constant) : Moves (eval constant) :=
  moves_of_keeps fun _ => rfl

theorem moves_freshIdentity : Moves freshIdentity :=
  moves_of_keeps fun _ => rfl

theorem moves_get : Moves (get : Action Session) :=
  moves_of_keeps fun _ => rfl

theorem moves_makeStore (form : StoreForm) : Moves (makeStore form) := by
  cases form with
  | unboxed store => exact moves_pure store
  | boxed values => exact (moves_evalAll values).bind fun _ => moves_pure _
  | shared values offset length =>
      refine (moves_evalAll values).bind fun elements => ?_
      refine moves_freshIdentity.bind fun identity => ?_
      exact (moves_ofStorage _).bind fun _ => moves_pure _

theorem moves_fillValues (name : String) (constants : List Constant) :
    Moves (fillValues name constants) :=
  (moves_evalAll constants).bind fun _ => moves_fill name _

theorem moves_fillStore (name : String) (form : StoreForm) (size : Nat) :
    Moves (fillStore name form size) :=
  (moves_makeStore form).bind fun _ => (moves_ofStorage _).bind fun _ => moves_fill name _

theorem moves_share (source : String) (start length : Nat) (target : String) :
    Moves (share source start length target) := by
  refine moves_freshIdentity.bind fun identity => moves_get.bind fun session => ?_
  refine (moves_ofStorage _).bind fun shared => ?_
  exact (moves_fill source _).bind fun _ => (moves_fill target _).bind fun _ => moves_pure _

/-- Where an action hands its engine to something that moves it, it puts the moved one back. -/
theorem moves_makeSite {make : Engine → Except Fault.Setup (SiteId × Engine)} (kind : Site.Kind)
    (makes : ∀ engine : Engine, make engine = engine.create kind) : Moves (makeSite make) := by
  intro session
  rw [makeSite, after_get]
  cases made : make session.engine with
  | error cause => exact .refl session.engine
  | ok result =>
      rw [makes] at made
      exact Engine.reaches_of_create made

theorem moves_useCoercion {id : SiteId} {use : CoercionSite → α × CoercionSite}
    (move : Site.Move ScriptState)
    (moves : ∀ site, (Site.coercion site).move move = .coercion (use site).2) :
    Moves (useCoercion id use) := by
  intro session
  rw [useCoercion, after_get]
  cases used : session.engine.useCoercion id use with
  | none => exact .refl session.engine
  | some result => exact Engine.reaches_of_useCoercion move moves used

theorem moves_useSequence {id : SiteId} {use : SequenceSite → α × SequenceSite}
    (as : SequenceSite.Use) (same : ∀ site, (use site).2 = (site.perform as).2) :
    Moves (useSequence id use) := by
  intro session
  rw [useSequence, after_get]
  cases used : session.engine.useSequence id use with
  | none => exact .refl session.engine
  | some result => exact Engine.reaches_of_useSequence as same used

theorem moves_trySequence {id : SiteId} {use : SequenceSite → Except Fault.Storage α × SequenceSite}
    (as : SequenceSite.Use) (same : ∀ site, (use site).2 = (site.perform as).2) :
    Moves (trySequence id use) :=
  (moves_useSequence as same).bind moves_ofStorage

theorem moves_scripted {id : SiteId} {script : Option Script}
    {run : Engine × ScriptState → Option (α × Engine × ScriptState)}
    (moves : ∀ state a state', run state = some (a, state') → state.1.Reaches state'.1) :
    Moves (scripted id script run) := by
  intro session
  rw [scripted, after_get]
  cases ran : run (session.engine, Script.start script session.next) with
  | none => exact .refl session.engine
  | some result => exact moves _ _ _ ran

theorem moves_coerce (id : SiteId) (constant : Constant) (strict : Bool) (script : Option Script) :
    Moves (coerce id constant strict script) := by
  refine (moves_eval constant).bind fun v => moves_scripted ?_
  rintro ⟨engine, t⟩ result ⟨next, t'⟩ coerced
  exact Engine.coerceAt_moves (fun name state => Script.reaches_invoker script v name [] state)
    coerced

/-- What is done several times moves the engine if it does once. -/
theorem reaches_of_repeated {run : Engine × ScriptState → Option (α × Engine × ScriptState)}
    (moves : ∀ state a state', run state = some (a, state') → state.1.Reaches state'.1)
    {times : Nat} {state state' : Engine × ScriptState} {answers : List α}
    (ran : repeated run times state = some (answers, state')) : state.1.Reaches state'.1 := by
  induction times generalizing state answers with
  | zero =>
      cases ran
      exact .refl _
  | succ times ih =>
      obtain ⟨⟨a, between⟩, first, ran⟩ := Option.bind_eq_some_iff.mp ran
      obtain ⟨⟨rest, last⟩, others, same⟩ := Option.bind_eq_some_iff.mp ran
      cases same
      exact (moves _ _ _ first).trans (ih others)

theorem moves_coerceLiteral (id : SiteId) (literal : Value → Literal) (constant : Constant)
    (strict : Bool) (script : Option Script) (times : Nat) :
    Moves (coerceLiteral id literal constant strict script times) := by
  refine (moves_eval constant).bind fun v => moves_scripted fun _ _ _ ran => ?_
  refine reaches_of_repeated ?_ ran
  rintro ⟨engine, t⟩ result ⟨next, t'⟩ coerced
  exact Engine.coerceLiteralAt_moves
    (fun v name state => Script.reaches_invoker script v name [] state) coerced

theorem moves_runProgram (body : Block) : Moves (runProgram body) := by
  intro session
  exact Machine.reaches_block body
    { toSession := session, bindings := [], trace := [], units := programUnits }

/-- What can be asked of a session. -/
inductive Request where
  | fill (name : String) (s : Sequence)
  | fillValues (name : String) (constants : List Constant)
  | fillStore (name : String) (form : StoreForm) (size : Nat)
  | share (source : String) (start length : Nat) (target : String)
  | newCoercion (width : Width)
  | newSequence
  | coerce (id : SiteId) (constant : Constant) (strict : Bool) (script : Option Script)
  | coerceLiteral (id : SiteId) (literal : Value → Literal) (constant : Constant) (strict : Bool)
      (script : Option Script) (times : Nat)
  | selectShape (id : SiteId) (shape : Value.Shape)
  | selectKind (id : SiteId) (kind : Store.Kind)
  | resolve (id : SiteId) (s : Sequence)
  | copyRange (id : SiteId) (s : Sequence) (start length : Nat)
  | copyAll (id : SiteId) (s : Sequence)
  | unsplat (id : SiteId) (arguments : List Sequence)
  | read (id : SiteId) (s : Sequence) (index : Nat)
  | runProgram (body : Block)

/-- The session after a request, without its answer. -/
def answer (session : Session) : Request → Session
  | .fill name s => session.after (Session.fill name s)
  | .fillValues name constants => session.after (Session.fillValues name constants)
  | .fillStore name form size => session.after (Session.fillStore name form size)
  | .share source start length target => session.after (Session.share source start length target)
  | .newCoercion width => session.after (Session.newCoercion width)
  | .newSequence => session.after Session.newSequence
  | .coerce id constant strict script => session.after (Session.coerce id constant strict script)
  | .coerceLiteral id literal constant strict script times =>
      session.after (Session.coerceLiteral id literal constant strict script times)
  | .selectShape id shape => session.after (Session.selectShape id shape)
  | .selectKind id kind => session.after (Session.selectKind id kind)
  | .resolve id s => session.after (Session.useSequence id (·.resolve s))
  | .copyRange id s start length =>
      session.after (Session.trySequence id (·.copyRange s start length))
  | .copyAll id s => session.after (Session.trySequence id (·.copyAll s))
  | .unsplat id arguments => session.after (Session.trySequence id (·.unsplat arguments))
  | .read id s index => session.after (Session.trySequence id (·.read s index))
  | .runProgram body => session.after (Session.runProgram body)

/-- The session after some requests. -/
def answerAll (session : Session) (requests : List Request) : Session :=
  requests.foldl answer session

theorem reaches_answer (session : Session) (request : Request) :
    session.engine.Reaches (session.answer request).engine := by
  cases request with
  | fill name s => exact moves_fill name s session
  | fillValues name constants => exact moves_fillValues name constants session
  | fillStore name form size => exact moves_fillStore name form size session
  | share source start length target => exact moves_share source start length target session
  | newCoercion width => exact moves_makeSite (.coercion width) (fun _ => rfl) session
  | newSequence => exact moves_makeSite .sequence (fun _ => rfl) session
  | coerce id constant strict script => exact moves_coerce id constant strict script session
  | coerceLiteral id literal constant strict script times =>
      exact moves_coerceLiteral id literal constant strict script times session
  | selectShape id shape =>
      exact moves_useCoercion (.perform (.coercion (.select shape))) (fun _ => rfl) session
  | selectKind id kind =>
      have moves : Moves (Session.selectKind id kind) :=
        moves_useSequence (.select kind) fun _ => rfl
      exact moves session
  | resolve id s =>
      have moves : Moves (Session.useSequence id (·.resolve s)) :=
        moves_useSequence (.resolve s) fun _ => rfl
      exact moves session
  | copyRange id s start length =>
      exact moves_trySequence (.copyRange s start length) (fun _ => rfl) session
  | copyAll id s => exact moves_trySequence (.copyAll s) (fun _ => rfl) session
  | unsplat id arguments => exact moves_trySequence (.unsplat arguments) (fun _ => rfl) session
  | read id s index => exact moves_trySequence (.read s index) (fun _ => rfl) session
  | runProgram body => exact moves_runProgram body session

/-- Whatever is asked of a session, its engine only makes moves. -/
theorem reaches_answerAll (session : Session) (requests : List Request) :
    session.engine.Reaches (session.answerAll requests).engine := by
  induction requests generalizing session with
  | nil => exact .refl session.engine
  | cons request requests ih => exact (session.reaches_answer request).trans (ih _)

end Session

end AdaptiveDispatch
