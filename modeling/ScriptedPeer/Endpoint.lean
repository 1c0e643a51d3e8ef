/-!
# Endpoints

Where a peer listens or is reached: a host and a port. A host with a colon in it is written in
brackets, so that the last colon of the text is always the one before the port.
-/

namespace ScriptedPeer

structure Endpoint where
  host : String
  port : UInt16
  deriving DecidableEq, Repr

namespace Endpoint

def withPort (e : Endpoint) (port : UInt16) : Endpoint := { e with port }

def text (e : Endpoint) : String :=
  let host := if e.host.contains ':' then "[" ++ e.host ++ "]" else e.host
  host ++ ":" ++ toString e.port.toNat

@[simp] theorem host_withPort (e : Endpoint) (p : UInt16) : (e.withPort p).host = e.host := rfl
@[simp] theorem port_withPort (e : Endpoint) (p : UInt16) : (e.withPort p).port = p := rfl

end Endpoint
end ScriptedPeer
