import AdaptiveDispatch.Completion

/-!
# Loops

A loop runs a body that completes normally or abruptly. It answers the signals of its
own body: the next iteration, the end of the loop, or the same iteration again. So no
signal reaches a loop further out, and only faults pass through.

Conditions and bodies thread a state. A body may ask to be run again for ever, and a
condition may hold for ever, so the loops take a bound on the runs of a body within an
iteration and on the number of iterations. A condition or a body may run loops itself, and
does not return when one of them does not. A loop returns `none` exactly when something it
runs does not return or the bound is too small.
-/

namespace AdaptiveDispatch

variable {σ α : Type}

namespace Loop

/-- How an iteration ends, once its body no longer asks to be run again. -/
inductive Iteration where
  | finished (value : Value)
  | left (value : Value)
  | failed (fault : Fault)

/-- Run a body until it does not ask to be run again. -/
def settle (body : σ → Option (Completion × σ)) : Nat → σ → Option (Iteration × σ)
  | 0, _ => none
  | bound + 1, s =>
      match body s with
      | none => none
      | some (.ok value, s) => some (.finished value, s)
      | some (.error (.signal (.next value)), s) => some (.finished value, s)
      | some (.error (.signal (.leave value)), s) => some (.left value, s)
      | some (.error (.signal .redo), s) => settle body bound s
      | some (.error (.fault fault), s) => some (.failed fault, s)

/-- Run a body as long as a condition holds. The value is `nil`, or what the body left
the loop with. -/
def whileDo (condition : σ → Option (Except Fault Bool × σ))
    (body : σ → Option (Completion × σ)) : Nat → σ → Option (Except Fault Value × σ)
  | 0, _ => none
  | bound + 1, s =>
      match condition s with
      | none => none
      | some (.error fault, s) => some (.error fault, s)
      | some (.ok false, s) => some (.ok .nil, s)
      | some (.ok true, s) =>
          match settle body (bound + 1) s with
          | none => none
          | some (.finished _, s) => whileDo condition body bound s
          | some (.left value, s) => some (.ok value, s)
          | some (.failed fault, s) => some (.error fault, s)

/-- The value of the body for each item, or what the body left the loop with. -/
inductive Outcome where
  | completed (values : List Value)
  | broken (value : Value)

def Outcome.isBroken : Outcome → Bool
  | .completed _ => false
  | .broken _ => true

/-- Run a body for each item in turn. -/
def each (body : Value → σ → Option (Completion × σ)) (bound : Nat) :
    List Value → σ → Option (Except Fault Outcome × σ)
  | [], s => some (.ok (.completed []), s)
  | item :: items, s =>
      match settle (body item) bound s with
      | none => none
      | some (.left value, s) => some (.ok (.broken value), s)
      | some (.failed fault, s) => some (.error fault, s)
      | some (.finished value, s) =>
          match each body bound items s with
          | some (.ok (.completed values), s) => some (.ok (.completed (value :: values)), s)
          | other => other

end Loop

/-- Hand a fault that a body ended with to a handler. Values and signals pass by it. -/
def rescuing (ended : Completion α × σ) (handler : Fault → σ → Completion α × σ) :
    Completion α × σ :=
  match ended with
  | (.error (.fault fault), s) => handler fault s
  | other => other

end AdaptiveDispatch
