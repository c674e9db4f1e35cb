import AdaptiveDispatch.Engine

/-!
# Sessions

A session is an engine with named registers that hold sequences, and the next unused
identity.
-/

namespace AdaptiveDispatch

structure Session where
  engine : Engine
  registers : List (String × Sequence)
  next : Identity

namespace Session

/-- A session without sites and with empty registers. -/
def new (settings : Settings) (next : Identity) : Except Fault.Setup Session := do
  return { engine := ← Engine.new settings, registers := [], next }

/-- An unset register holds the empty sequence. -/
def register (session : Session) (name : String) : Sequence :=
  (session.registers.lookup name).getD .empty

end Session

end AdaptiveDispatch
