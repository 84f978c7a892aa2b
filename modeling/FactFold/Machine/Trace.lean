import FactFold.Log.Logger
import FactFold.Machine.World

/-!
# Traces

Every expression that is checked for the first time is worth a message, under the name of the
machine.
-/

namespace FactFold.Machine

/-- The machine's logger over another one. -/
def traceLogger (next : Log.Logger) : Log.Logger := .named "sim" next

/-- The message about a checked expression. -/
def checkedEvent (source : String) : Log.Event := ⟨.debug, "compiled %s", [.ofText source]⟩

/-- The messages about expressions checked since there were `known` of them. -/
def World.messagesSince (w : World) (known : Nat) : List Log.Event :=
  (w.programs.drop known).map checkedEvent

end FactFold.Machine
