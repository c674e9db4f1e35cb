import AdaptiveDispatch.Proofs.Engine.Moves

/-!
# Clients of an engine

While a method runs, the coercion that called it waits, and the method may do anything with
the engine: use the same site or its strict child, use others, make new ones. `Client` is
whoever does so, from outside or as a method. Seen from the engine all this is one sequence of
moves (`Client.run_moves`).
-/

namespace AdaptiveDispatch

variable {τ : Type}

namespace Engine

variable {engine next : Engine} {id : SiteId}

/-- If a method makes moves then so does the coercion that calls it. -/
theorem coerceAt_moves {invoke : Invoker (Engine × τ)} {v : Value}
    (moves : ∀ name state, ∃ moves : List (Move τ),
      (invoke v name [] state).2.1 = state.1.moved moves)
    {strict : Bool} {t t' : τ} {result : Coerced}
    (coerced : coerceAt invoke id v strict (engine, t) = some (result, next, t')) :
    ∃ moves : List (Move τ), next = engine.moved moves := by
  simp only [coerceAt, Option.bind_eq_bind, Option.bind_eq_some_iff] at coerced
  obtain ⟨⟨progress, started⟩, first, coerced⟩ := coerced
  obtain ⟨site, there, state⟩ := useCoercion_eq_some first
  have start : started = engine.move (.touch id (.start v strict) : Move τ) :=
    state.trans (move_touch there (.start v strict)).symm
  cases progress with
  | done outcome =>
      cases coerced
      exact ⟨[.touch id (.start v strict)], start⟩
  | pending name =>
      obtain ⟨between, called⟩ := moves name (started, t)
      dsimp only at coerced called
      generalize invoke v name [] (started, t) = call at coerced called
      obtain ⟨⟨outcome, finished⟩, second, coerced⟩ := Option.bind_eq_some_iff.mp coerced
      cases coerced
      obtain ⟨site', there', state'⟩ := useCoercion_eq_some second
      refine ⟨.touch id (.start v strict) :: (between ++ [.touch id (.resume v call.1)]), ?_⟩
      rw [moved_cons, moved_append, ← start, ← called]
      exact state'.trans (move_touch there' (.resume v call.1)).symm

theorem coerceLiteralAt_moves {invoke : Invoker (Engine × τ)}
    (moves : ∀ v name state, ∃ moves : List (Move τ),
      (invoke v name [] state).2.1 = state.1.moved moves)
    {literal : Literal} {strict : Bool} {t t' : τ} {result : Coerced}
    (coerced : coerceLiteralAt invoke id literal strict (engine, t) = some (result, next, t')) :
    ∃ moves : List (Move τ), next = engine.moved moves := by
  rw [coerceLiteralAt] at coerced
  cases typed : literal.asLong with
  | error v =>
      rw [typed] at coerced
      exact coerceAt_moves (moves v) coerced
  | ok n =>
      simp only [typed, Option.bind_eq_bind, Option.bind_eq_some_iff] at coerced
      obtain ⟨⟨outcome, used⟩, first, coerced⟩ := coerced
      cases coerced
      obtain ⟨site, there, state⟩ := useCoercion_eq_some first
      exact ⟨[], state.trans (put_of_site? there)⟩

end Engine

/-- What someone does who holds an engine and a state of their own. They make sites, use
them, and have values coerced with methods that are clients themselves. They may look at the
engine at any time. In the end a client replies, which only matters for a method. -/
inductive Client (τ : Type) where
  | finish (reply : Reply) (t : τ)
  | create (kind : Site.Kind) (next : Except Fault.Setup SiteId → Engine → Client τ)
  | perform (id : SiteId) (use : Site.Use τ)
      (next : Option (Site.Answer τ) → Engine → Client τ)
  | coerce (id : SiteId) (v : Value) (strict : Bool) (t : τ)
      (methods : Value → String → List Value → Engine × τ → Client τ)
      (next : Option Coerced → Engine × τ → Client τ)
  | coerceLiteral (id : SiteId) (literal : Literal) (strict : Bool) (t : τ)
      (methods : Value → String → List Value → Engine × τ → Client τ)
      (next : Option Coerced → Engine × τ → Client τ)

namespace Client

/-- Go on with what comes of a coercion, or with the state before it if the number has no
coercion site. -/
def resumeWith (next : Option Coerced → Engine × τ → Reply × Engine × τ) (state : Engine × τ) :
    Option (Coerced × Engine × τ) → Reply × Engine × τ
  | some (result, state) => next (some result) state
  | none => next none state

/-- Let a client act on an engine. -/
def run : Client τ → Engine → Reply × Engine × τ
  | .finish reply t, engine => (reply, engine, t)
  | .create kind next, engine =>
      match engine.create kind with
      | .ok (id, engine) => (next (.ok id) engine).run engine
      | .error fault => (next (.error fault) engine).run engine
  | .perform id use next, engine =>
      let (answer, engine) := engine.perform id use
      (next answer engine).run engine
  | .coerce id v strict t methods next, engine =>
      resumeWith (fun result state => (next result state).run state.1) (engine, t)
        (Engine.coerceAt
          (fun receiver name arguments state =>
            (methods receiver name arguments state).run state.1)
          id v strict (engine, t))
  | .coerceLiteral id literal strict t methods next, engine =>
      resumeWith (fun result state => (next result state).run state.1) (engine, t)
        (Engine.coerceLiteralAt
          (fun receiver name arguments state =>
            (methods receiver name arguments state).run state.1)
          id literal strict (engine, t))

theorem resumeWith_moves {engine : Engine} {t : τ} {coerced : Option (Coerced × Engine × τ)}
    {next : Option Coerced → Engine × τ → Reply × Engine × τ}
    (before : ∀ result after t', coerced = some (result, after, t') →
      ∃ moves : List (Engine.Move τ), after = engine.moved moves)
    (later : ∀ result state, ∃ moves : List (Engine.Move τ),
      (next result state).2.1 = state.1.moved moves) :
    ∃ moves : List (Engine.Move τ),
      (resumeWith next (engine, t) coerced).2.1 = engine.moved moves := by
  cases coerced with
  | none => exact later none (engine, t)
  | some coerced =>
      obtain ⟨result, after, t'⟩ := coerced
      obtain ⟨moves, state⟩ := before result after t' rfl
      obtain ⟨more, state'⟩ := later (some result) (after, t')
      refine ⟨moves ++ more, ?_⟩
      rw [Engine.moved_append, ← state]
      exact state'

/-- Whatever a client does, with whatever methods, is a sequence of moves for the engine. -/
theorem run_moves (client : Client τ) (engine : Engine) :
    ∃ moves : List (Engine.Move τ), (client.run engine).2.1 = engine.moved moves := by
  induction client generalizing engine with
  | finish reply t => exact ⟨[], rfl⟩
  | create kind next ih =>
      rw [run]
      cases made : engine.create kind with
      | error fault => exact ih (.error fault) engine engine
      | ok site =>
          obtain ⟨moves, state⟩ := ih (.ok site.1) site.2 site.2
          refine ⟨.create kind :: moves, ?_⟩
          rw [Engine.moved_cons, Engine.move_create made]
          exact state
  | perform id use next ih =>
      obtain ⟨moves, state⟩ := ih (engine.perform id use).1 (engine.perform id use).2
        (engine.perform id use).2
      refine ⟨.touch id (.perform use) :: moves, ?_⟩
      rw [Engine.moved_cons, ← Engine.perform_move]
      exact state
  | coerce id v strict t methods next called ih =>
      apply resumeWith_moves
      · intro result after t' coerced
        exact Engine.coerceAt_moves (fun name state => called v name [] state state.1) coerced
      · intro result state
        exact ih result state state.1
  | coerceLiteral id literal strict t methods next called ih =>
      apply resumeWith_moves
      · intro result after t' coerced
        exact Engine.coerceLiteralAt_moves (fun v name state => called v name [] state state.1)
          coerced
      · intro result state
        exact ih result state state.1

end Client

end AdaptiveDispatch
