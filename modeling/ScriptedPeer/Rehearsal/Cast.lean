import ScriptedPeer.Lifecycle

/-!
# Casts

A run need not come from the catalog: it can be put together from handlers and loops of one's own.
Handlers are registered in order, a later one taking the place of an earlier one of its method.
-/

namespace ScriptedPeer

/-- Who answers the calls of a method. -/
inductive Responder where
  | handler (handler : Handler)
  /-- Breaks down on every call of the method. -/
  | broken (method : Method)
  deriving DecidableEq, Repr

namespace Lifecycle

/-- A service table and the methods whose handling breaks down. A handler that is replaced is gone,
and its hook with it. -/
def enlist (cast : ServiceTable × List Method) : Responder → ServiceTable × List Method
  | .handler h => (cast.1.register h, cast.2.filter (· ≠ h.method))
  | .broken m => (cast.1.remove m, m :: cast.2)

/-- The run of a cast. It serves only where an endpoint is given. -/
def custom (name : String) (drain : Nat) (listen : Option Endpoint) (responders : List Responder)
    (loops : List RequestLoop) : Lifecycle :=
  let cast := responders.foldl enlist (.empty, [])
  { scenario := name
    drain
    listen := listen.map fun endpoint => (endpoint, cast.1)
    broken := cast.2
    pending := RequestLoop.shareTriggers .shared loops }

end Lifecycle
end ScriptedPeer
