import AdaptiveDispatch.Program.Run

/-!
# Actions of a session

Actions make sites and use them, and fill registers. An action that fails leaves the
registers as they were, but a site remembers what it has seen.
-/

namespace AdaptiveDispatch.Session

/-- What a session can do: change, and answer or fail. -/
abbrev Action := ExceptT Fault (StateM Session)

/-- The result of an operation on sequences. -/
def ofStorage (result : Except Fault.Storage α) : Action α :=
  ExceptT.mk (pure (result.mapError .storage))

/-- Put a sequence into a register. -/
def fill (name : String) (s : Sequence) : Action Sequence :=
  modifyGet fun session =>
    let others := session.registers.filter fun entry => entry.1 != name
    (s, { session with registers := (name, s) :: others })

/-- The values of some constants. -/
def evalAll (constants : List Constant) : Action (List Value) :=
  modifyGet fun session =>
    let (values, next) := Constant.evalAll constants session.next
    (values, { session with next })

/-- The value of a constant. -/
def eval (constant : Constant) : Action Value :=
  modifyGet fun session =>
    let (value, next) := constant.eval session.next
    (value, { session with next })

/-- An identity that nothing else has. -/
def freshIdentity : Action Identity :=
  modifyGet fun session => (session.next, { session with next := session.next + 1 })

/-- A store as it is written down. -/
inductive StoreForm where
  | unboxed (store : Store)
  | boxed (values : List Constant)
  | shared (values : List Constant) (offset length : Nat)

/-- The store that is written down; a window is checked against its values. -/
def makeStore : StoreForm → Action Store
  | .unboxed store => return store
  | .boxed values => return .boxed (← evalAll values)
  | .shared values offset length => do
      let elements ← evalAll values
      let identity ← freshIdentity
      return .shared (← ofStorage (Window.ofRange ⟨identity, elements⟩ offset length))

/-- Fill a register with the sequence of some constants. -/
def fillValues (name : String) (constants : List Constant) : Action Sequence := do
  fill name (.ofValues (← evalAll constants))

/-- Fill a register with the first elements of a store. -/
def fillStore (name : String) (form : StoreForm) (size : Nat) : Action Sequence := do
  fill name (← ofStorage (Sequence.ofStore (← makeStore form) size))

/-- Share a range of one register, and put the window into another. Both sequences are
returned, the window first. -/
def share (source : String) (start length : Nat) (target : String) :
    Action (Sequence × Sequence) := do
  let identity ← freshIdentity
  let (window, shared) ←
    ofStorage (((← get).register source).share start length identity)
  let source ← fill source shared
  let window ← fill target window
  return (window, source)

/-- Register what the engine makes. -/
def makeSite (make : Engine → Except Fault.Setup (SiteId × Engine)) : Action SiteId := do
  match make (← get).engine with
  | .ok (id, engine) =>
      modify fun session => { session with engine }
      return id
  | .error cause => throw (.setup cause)

def newCoercion (width : Width) : Action SiteId :=
  makeSite (·.newCoercion width)

def newSequence : Action SiteId :=
  makeSite (·.newSequence)

/-- Use a coercion site directly. -/
def useCoercion (id : SiteId) (use : CoercionSite → α × CoercionSite) : Action α := do
  match (← get).engine.useCoercion id use with
  | some (a, engine) =>
      modify fun session => { session with engine }
      return a
  | none => throw (Engine.wrongSort id)

/-- Use a sequence site directly. -/
def useSequence (id : SiteId) (use : SequenceSite → α × SequenceSite) : Action α := do
  match (← get).engine.useSequence id use with
  | some (a, engine) =>
      modify fun session => { session with engine }
      return a
  | none => throw (Engine.wrongSort id)

/-- Use a sequence site for an operation that may fail. -/
def trySequence (id : SiteId)
    (use : SequenceSite → Except Fault.Storage α × SequenceSite) : Action α := do
  ofStorage (← useSequence id use)

/-- Choose the conversion for a shape at a coercion site. -/
def selectShape (id : SiteId) (shape : Value.Shape) : Action (Selection Conversion) :=
  useCoercion id fun site =>
    let (selection, cache) := site.cache.select shape
    (selection, { site with cache })

/-- Choose the access for a kind of store at a sequence site. -/
def selectKind (id : SiteId) (kind : Store.Kind) : Action (Selection Access) :=
  useSequence id fun site =>
    let (selection, cache) := site.cache.select kind
    (selection, { site with cache })

/-- Run a part of a session that calls the methods of a script. The calls it made are
returned with its answer. -/
def scripted (id : SiteId) (script : Option Script)
    (run : Engine × ScriptState → Option (α × Engine × ScriptState)) :
    Action (α × List Call) := do
  let session ← get
  match run (session.engine, Script.start script session.next) with
  | none => throw (Engine.wrongSort id)
  | some (a, engine, state) =>
      set { session with engine, next := state.next }
      return (a, state.calls)

/-- Coerce a value at a site. -/
def coerce (id : SiteId) (constant : Constant) (strict : Bool) (script : Option Script) :
    Action (Coerced × List Call) := do
  let v ← eval constant
  scripted id script (Engine.coerceAt (Script.invoker script) id v strict)

/-- Do something several times, one after the other. -/
def repeated (run : σ → Option (α × σ)) : Nat → σ → Option (List α × σ)
  | 0, s => some ([], s)
  | times + 1, s => do
      let (a, s) ← run s
      let (rest, s) ← repeated run times s
      return (a :: rest, s)

/-- Coerce a literal at a site several times, with one run of the script. -/
def coerceLiteral (id : SiteId) (literal : Value → Literal) (constant : Constant)
    (strict : Bool) (script : Option Script) (times : Nat) : Action (List Coerced × List Call) := do
  let v ← eval constant
  scripted id script
    (repeated (Engine.coerceLiteralAt (Script.invoker script) id (literal v) strict) times)

/-- The units a program may spend. -/
def programUnits : Nat :=
  2000

/-- What a program leaves behind. -/
structure RunResult where
  result : Completion
  trace : List TraceEntry
  bindings : List (String × Value)

/-- Run a program over the engine and the registers. -/
def runProgram (body : Block) : Action RunResult :=
  modifyGet fun session =>
    let (result, m) :=
      Block.run body
        { toSession := session, bindings := [], trace := [], units := programUnits }
    (⟨result, m.trace, m.bindings⟩, m.toSession)

end AdaptiveDispatch.Session
