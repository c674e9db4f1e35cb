import AdaptiveDispatch.Value.Basic

/-!
# Calling methods

Methods live outside this library. An invoker calls a named method on a receiver and
tells a missing method apart from one that returned. It threads a state of its own, so a
method may do anything that its state records.
-/

namespace AdaptiveDispatch

/-- What comes of a call. -/
inductive Reply where
  | returned (value : Value)
  | missing

/-- Calls a method, given the receiver, the method's name and the arguments. -/
abbrev Invoker (τ : Type) := Value → String → List Value → τ → Reply × τ

/-- An invoker for which no method exists. -/
def Invoker.none : Invoker τ :=
  fun _ _ _ state => (.missing, state)

end AdaptiveDispatch
