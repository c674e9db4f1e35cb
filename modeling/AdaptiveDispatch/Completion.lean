import AdaptiveDispatch.Fault
import AdaptiveDispatch.Value.Basic

/-!
# Completions

Running a part of a program completes normally with a value or abruptly. An abrupt
completion is a signal to the loop around it, or a fault. The two are kept apart so that
whatever handles faults lets signals pass.

Signals and faults compare like the values they carry, by `Value.equals`.
-/

namespace AdaptiveDispatch

/-- A request to the innermost loop: end this iteration, leave the loop, or run this
iteration again. -/
inductive Signal where
  | next (payload : Value)
  | leave (payload : Value)
  | redo

namespace Signal

inductive Kind where
  | next
  | leave
  | redo
  deriving DecidableEq

def kind : Signal → Kind
  | .next _ => .next
  | .leave _ => .leave
  | .redo => .redo

/-- The value a signal carries; running an iteration again carries `nil`. -/
def payload : Signal → Value
  | .next payload | .leave payload => payload
  | .redo => .nil

/-- The signal of a kind. Running an iteration again drops the payload. -/
def ofKind : Kind → Value → Signal
  | .next, payload => .next payload
  | .leave, payload => .leave payload
  | .redo, _ => .redo

def equals : Signal → Signal → Bool
  | .next v, .next w => v.equals w
  | .leave v, .leave w => v.equals w
  | .redo, .redo => true
  | _, _ => false

end Signal

inductive Abrupt where
  | signal (signal : Signal)
  | fault (fault : Fault)

namespace Abrupt

def isSignal : Abrupt → Bool
  | .signal _ => true
  | .fault _ => false

def equals : Abrupt → Abrupt → Bool
  | .signal s, .signal t => s.equals t
  | .fault f, .fault g => f == g
  | _, _ => false

end Abrupt

/-- How running a part of a program ends. -/
abbrev Completion (α : Type := Value) := Except Abrupt α

/-- A failure inside a part of a program as a completion. -/
def Completion.ofFault (result : Except Fault α) : Completion α :=
  result.mapError .fault

end AdaptiveDispatch
