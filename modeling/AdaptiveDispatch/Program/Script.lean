import AdaptiveDispatch.Engine
import AdaptiveDispatch.Value.Constant

/-!
# Scripted methods

A script says how methods answer. Each rule covers a class and a method name, or any of
them, and lists acts. The first rule that covers a call decides it, and each call it
decides takes the next of its acts, the last one over and over.

Every call is recorded. An act may coerce a field of the receiver at a site of the
engine with the same script, so calls nest; since the field is a part of the receiver,
they nest no deeper than the receiver does.
-/

namespace AdaptiveDispatch

inductive Act where
  | answer (value : Constant)
  | answerSelf
  | missing
  | answerField (index : Nat)
  | coerceField (index : Nat) (site : SiteId) (strict : Bool)

structure ScriptRule where
  className : Option String
  method : Option String
  acts : List Act

abbrev Script := List ScriptRule

/-- A call that was made. -/
structure Call where
  receiver : Value
  method : String
  arity : Nat

/-- What a run of a script keeps: the times each rule has decided a call, the calls in
order, and the next unused identity. -/
structure ScriptState where
  decided : List Nat
  calls : List Call
  next : Identity

namespace ScriptRule

def covers (rule : ScriptRule) (receiver : Value) (method : String) : Bool :=
  rule.className.all (· == receiver.className) && rule.method.all (· == method)

/-- The act for the call that comes after `decided` others. -/
def actAfter (rule : ScriptRule) (decided : Nat) : Act :=
  (rule.acts[min decided (rule.acts.length - 1)]?).getD .missing

end ScriptRule

/-- A field is smaller than the object it belongs to. -/
theorem Value.sizeOf_field?_lt {v field : Value} {index : Nat}
    (h : v.field? index = some field) : sizeOf field < sizeOf v := by
  cases v <;> simp only [Value.field?, reduceCtorEq] at h
  have := List.sizeOf_lt_of_mem (List.mem_of_getElem? h)
  simp only [Value.object.sizeOf_spec]
  omega

namespace Script

/-- The state before the first call. -/
def start (script : Option Script) (next : Identity) : ScriptState :=
  ⟨(script.getD []).map fun _ => 0, [], next⟩

/-- Record a call and find the act that answers it. -/
def decide? (script : Script) (receiver : Value) (method : String) (arity : Nat)
    (state : ScriptState) : Option Act × ScriptState :=
  let state := { state with calls := state.calls ++ [⟨receiver, method, arity⟩] }
  match script.findIdx? (·.covers receiver method) with
  | none => (none, state)
  | some position =>
      let decided := (state.decided[position]?).getD 0
      (script[position]?.map (·.actAfter decided),
        { state with decided := state.decided.set position (decided + 1) })

/-- The answer of a method that coerced a value. -/
def replyOf : Coerced → Reply
  | .ok n => .returned (.long n)
  | .error _ => .missing

/-- Answer a call. A nested coercion sends its method to the field, with the same
script. -/
def call (script : Script) (receiver : Value) (method : String) (arguments : List Value)
    (state : Engine × ScriptState) : Reply × Engine × ScriptState :=
  let engine := state.1
  match script.decide? receiver method arguments.length state.2 with
  | (none, s) | (some .missing, s) => (.missing, engine, s)
  | (some .answerSelf, s) => (.returned receiver, engine, s)
  | (some (.answer constant), s) =>
      let (value, next) := constant.eval s.next
      (.returned value, engine, { s with next })
  | (some (.answerField index), s) =>
      match receiver.field? index with
      | none => (.missing, engine, s)
      | some field => (.returned field, engine, s)
  | (some (.coerceField index site strict), s) =>
      match h : receiver.field? index with
      | none => (.missing, engine, s)
      | some field =>
          have := Value.sizeOf_field?_lt h
          match engine.useCoercion site (·.start field strict) with
          | none => (.missing, engine, s)
          | some (.done result, engine) => (replyOf result, engine, s)
          | some (.pending method, engine) =>
              let (reply, engine, s) := script.call field method [] (engine, s)
              match engine.useCoercion site (·.resume field reply) with
              | none => (.missing, engine, s)
              | some (result, engine) => (replyOf result, engine, s)
termination_by sizeOf receiver

/-- The methods of a script. Where there is no script there are no methods, and no calls
are recorded. -/
def invoker : Option Script → Invoker (Engine × ScriptState)
  | none => Invoker.none
  | some script => script.call

end Script

end AdaptiveDispatch
