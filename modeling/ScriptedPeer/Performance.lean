import ScriptedPeer.Rehearsal.Play

/-!
# Performances

A performance is a rehearsal before an audience: the clock is the machine's, calls take as long as
they take, and connections come from outside. It takes one event after the other, does what is due
by then, and says what is to be done in the world.
-/

namespace ScriptedPeer

/-- What the world does to a performance. -/
inductive Event where
  /-- Nothing but time has passed. -/
  | quiet
  | connected
  | arrived (connection : Nat) (bytes : Wire.Bytes) (closed : Bool)
  | returned (loop : Nat) (acknowledged : Bool)
  | stopRequested
  deriving DecidableEq, Repr, Inhabited

/-- What a performance does to the world. -/
inductive Demand where
  | call (loop : Nat) (request : Request)
  /-- The last bytes on a connection. -/
  | close (connection : Nat) (bytes : Wire.Bytes)
  deriving DecidableEq, Repr

namespace Rehearsal

def notice (r : Rehearsal) (e : Event) : Rehearsal :=
  match e, r.lifecycle.server with
  | .quiet, _ => r
  | .stopRequested, _ => r.trigger (some .external)
  | .connected, some s => r.setServer s.accept
  | .arrived n bytes closed, some s => r.deliver s n bytes closed
  | .connected, none | .arrived .., none => r
  | .returned n acknowledged, _ => match r.lifecycle.loops[n]? with
    | some l => r.setLoop n { l with phase := .calling (.at r.now acknowledged) }
    | none => r

/-- Whether the server has done with a connection. -/
def hasClosed (r : Rehearsal) (n : Nat) : Bool :=
  match r.lifecycle.server with
  | some s => s.connections[n]?.any (!·.isOpen)
  | none => false

/-- A connection that the server has done with between `before` and `r` is closed. -/
def closings (before r : Rehearsal) : Event → List Demand
  | .arrived n .. =>
    if !before.hasClosed n && r.hasClosed n then [.close n (r.written n)] else []
  | .quiet | .connected | .returned .. | .stopRequested => []

/-- Takes an event that comes at `now`. -/
def perform (before : Rehearsal) (now : Nat) (timeOfDay : Timestamp) (e : Event) :
    Rehearsal × List Demand :=
  let r := ({ before with now, timeOfDay, sent := [] }.notice e).settle
  (r, closings before r e ++ r.sent.reverse.map fun s => .call s.loop s.request)

/-- The stop has been given and nothing is left to be done. -/
def isOver (r : Rehearsal) : Bool :=
  r.stopped && r.lifecycle.loops.all RequestLoop.isOver && r.lifecycle.server.all Server.isDrained

/-- The report of a performance that ends now. What is not over is given up. -/
def conclude (r : Rehearsal) : Option RunReport :=
  (r.lifecycle.waitForStop r.now).map Prod.fst

end Rehearsal
end ScriptedPeer
