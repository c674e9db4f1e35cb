import AdaptiveDispatch.Loop
import AdaptiveDispatch.Program.Syntax
import AdaptiveDispatch.Session.Basic

/-!
# Running programs

A run changes a machine: a session with variables, a trace, and the units of work that
are left. Every statement and every test of a condition costs one unit, and without a
unit it fails. Since a loop spends units each time it goes round, it ends within a bound
that the units give, and a run is a total function.

The registers of the session stay as they are.
-/

namespace AdaptiveDispatch

inductive TraceEntry where
  | value (value : Value)
  | call (call : Call)
  | outcome (outcome : Loop.Outcome)
  | rescued (fault : Fault)

structure Machine extends Session where
  bindings : List (String × Value)
  trace : List TraceEntry
  units : Nat

namespace Machine

/-- An unset variable reads as `nil`. -/
def get (m : Machine) (name : String) : Value :=
  (m.bindings.lookup name).getD .nil

def set (m : Machine) (name : String) (value : Value) : Machine :=
  { m with bindings := (name, value) :: m.bindings.filter (·.1 != name) }

def record (m : Machine) (entries : List TraceEntry) : Machine :=
  { m with trace := m.trace ++ entries }

/-- Count a variable up by one, from zero if it holds no fixnum. -/
def increment (m : Machine) (name : String) : Value × Machine :=
  let value := Value.long (((m.get name).fixnum?.getD 0) + 1)
  (value, m.set name value)

/-- Pay a unit, if there is one. -/
def spend? (m : Machine) : Option Machine :=
  match m.units with
  | 0 => none
  | units + 1 => some { m with units }

/-- A loop goes round at most this often. -/
def loopBound (m : Machine) : Nat :=
  m.units + 2

/-- What is raised when a unit is missing. -/
def exhausted : Fault :=
  .raised "fuel exhausted"

end Machine

/-- The sum of two fixnums, modulo `2 ^ 64`; other values have none. -/
def Value.add (v w : Value) : Value :=
  match v.fixnum?, w.fixnum? with
  | some m, some n => .long (m + n)
  | _, _ => .nil

/-- Whether both values are fixnums and the first is the smaller one. -/
def Value.less (v w : Value) : Bool :=
  match v.fixnum?, w.fixnum? with
  | some m, some n => decide (m < n)
  | _, _ => false

def Expr.eval : Expr → Machine → Value × Machine
  | .constant c, m =>
      let (value, next) := c.eval m.next
      (value, { m with next })
  | .variable name, m => (m.get name, m)
  | .add left right, m =>
      let (v, m) := left.eval m
      let (w, m) := right.eval m
      (v.add w, m)

/-- The values of several expressions, in order. -/
def Expr.evalAll : List Expr → Machine → List Value × Machine
  | [], m => ([], m)
  | e :: rest, m =>
      let (value, m) := e.eval m
      let (values, m) := evalAll rest m
      (value :: values, m)

/-- Test a condition. -/
def Condition.test : Condition → Machine → Except Fault Bool × Machine
  | condition, m =>
      match m.spend? with
      | none => (.error Machine.exhausted, m)
      | some m =>
          match condition with
          | .literal holds => (.ok holds, m)
          | .less left right =>
              let (v, m) := left.eval m
              let (w, m) := right.eval m
              (.ok (v.less w), m)
          | .equal left right =>
              let (v, m) := left.eval m
              let (w, m) := right.eval m
              (.ok (v.equals w), m)
          | .not condition =>
              match condition.test m with
              | (.ok holds, m) => (.ok !holds, m)
              | (.error fault, m) => (.error fault, m)
          | .countBelow name limit =>
              let (v, m) := m.increment name
              let (w, m) := limit.eval m
              (.ok (v.less w), m)
          | .raise text => (.error (.raised text), m)

namespace Machine

/-- Coerce at a site, and put the calls that were made into the trace. -/
def coerce (m : Machine) (site : SiteId) (v : Value) (strict : Bool)
    (script : Option Script) : Completion × Machine :=
  match Engine.coerceAt (Script.invoker script) site v strict
    (m.engine, Script.start script m.next) with
  | none => (.error (.fault (Engine.wrongSort site)), m)
  | some (result, engine, state) =>
      let m := { m with engine, next := state.next }.record (state.calls.map .call)
      match result with
      | .ok n => (.ok (.long n), m)
      | .error cause => (.error (.fault (.coercion cause)), m)

/-- Use a sequence site. -/
def useSequence (m : Machine) (site : SiteId)
    (use : SequenceSite → Except Fault.Storage α × SequenceSite) : Except Fault α × Machine :=
  match m.engine.useSequence site use with
  | none => (.error (Engine.wrongSort site), m)
  | some (result, engine) => (result.mapError .storage, { m with engine })

/-- The items of a loop, all found before the loop begins. -/
def items (m : Machine) : Items → Except Fault (List Value) × Machine
  | .written items =>
      let (values, m) := Expr.evalAll items m
      (.ok values, m)
  | .elements register site => m.useSequence site (·.copyAll (m.register register))

end Machine

mutual

/-- Run a statement. -/
def Stmt.run : Stmt → Machine → Completion × Machine
  | statement, m =>
      match m.spend? with
      | none => (.error (.fault Machine.exhausted), m)
      | some m =>
          match statement with
          | .value e =>
              let (v, m) := e.eval m
              (.ok v, m)
          | .set name e =>
              let (v, m) := e.eval m
              (.ok v, m.set name v)
          | .increment name =>
              let (v, m) := m.increment name
              (.ok v, m)
          | .trace e =>
              let (v, m) := e.eval m
              (.ok v, m.record [.value v])
          | .ifElse condition yes no =>
              match condition.test m with
              | (.error fault, m) => (.error (.fault fault), m)
              | (.ok true, m) => Block.run yes m
              | (.ok false, m) => Block.run no m
          | .next e =>
              let (v, m) := e.eval m
              (.error (.signal (.next v)), m)
          | .leave e =>
              let (v, m) := e.eval m
              (.error (.signal (.leave v)), m)
          | .redo => (.error (.signal .redo), m)
          | .raise text => (.error (.fault (.raised text)), m)
          | .coerce site e strict script =>
              let (v, m) := e.eval m
              m.coerce site v strict script
          | .read site register index =>
              let (result, m) := m.useSequence site (·.read (m.register register) index)
              (.ofFault result, m)
          | .whileDo condition body =>
              match Loop.whileDo (fun m => some (condition.test m))
                (fun m => some (Block.run body m)) m.loopBound m with
              | none => (.error (.fault Machine.exhausted), m)
              | some (result, m) => (.ofFault result, m)
          | .each name items body =>
              match m.items items with
              | (.error fault, m) => (.error (.fault fault), m)
              | (.ok values, m) =>
                  let bound := m.loopBound
                  match Loop.each (fun v m => some (Block.run body (m.set name v))) bound
                    values m with
                  | none => (.error (.fault Machine.exhausted), m)
                  | some (.error fault, m) => (.error (.fault fault), m)
                  | some (.ok (.completed values), m) =>
                      (.ok .nil, m.record [.outcome (.completed values)])
                  | some (.ok (.broken v), m) => (.ok v, m.record [.outcome (.broken v)])
          | .rescue body handler reraise =>
              rescuing (Block.run body m) fun fault m =>
                let m := m.record [.rescued fault]
                if reraise then (.error (.fault fault), m) else Block.run handler m

/-- Run a block. Its value is that of the last statement, or `nil`. -/
def Block.run : List Stmt → Machine → Completion × Machine
  | [], m => (.ok .nil, m)
  | [last], m => last.run m
  | first :: rest, m =>
      match first.run m with
      | (.ok _, m) => Block.run rest m
      | (.error abrupt, m) => (.error abrupt, m)

end

end AdaptiveDispatch
