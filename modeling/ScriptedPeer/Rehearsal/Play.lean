import ScriptedPeer.Rehearsal.Shutdown

/-!
# Playing a rehearsal

Takes the steps of a script one after the other. After every step all that is due is done before
anything is observed. A wait that runs out just when the stop comes has seen it, and then takes as
long as the shutdown does; what is due with the stop is done before that. A run shuts down at the
end of the round that brings the stop, whatever is left to be done. It has a limit for all of it:
what ends just then comes too late, and a shutdown that is not done is given up.

The clock of a rehearsal stands in for the paused clock of an asynchronous runtime, for which thirty
years count as never: a ticker is not set for longer, and one advance of the clock goes no further.
The limit of a wait may be longer, and the loops themselves know of no such time.
-/

namespace ScriptedPeer

/-- The loop with a ticker that is never set for longer. -/
def RequestLoop.within (l : RequestLoop) (longest : Nat) : RequestLoop :=
  { l with cadence := l.cadence.mapTicker fun t => { t with interval := min t.interval longest } }

namespace Rehearsal

/-- The longest time that one timer is set for: thirty years of 365 days. -/
def horizon : Nat := 946080000000

/-- A rehearsal of a lifecycle that has not been started. -/
def new (lifecycle : Lifecycle) (network : Network) (peer : Peer) (canFire : Bool) : Rehearsal where
  lifecycle := { lifecycle with pending := lifecycle.pending.map (·.within horizon) }
  network
  peer
  canFire

/-- Starts the server and the loops, none of which has had its turn yet. -/
def launch (r : Rehearsal) : Rehearsal × Option RunFault :=
  let (lifecycle, fault) := r.lifecycle.start r.network r.now
  let started := if r.lifecycle.state = .starting then lifecycle.tasks else []
  ({ r with lifecycle, line := r.line ++ started, roused := r.roused ++ started }, fault)

def start (r : Rehearsal) : Rehearsal × Option RunFault :=
  let (r, fault) := r.launch
  (r.settle, fault)

/-- Lets time pass until the stop, and to `last` when it does not come. -/
def untilStop (r : Rehearsal) (last : Nat) : Rehearsal :=
  let r := r.pass last true
  if r.stopped then r else { r with now := last }.settle

def wait (r : Rehearsal) (limit : Nat) : Rehearsal × Option RunReport :=
  (r.untilStop (r.now + limit)).settle.awaitReport

/-- Waits for the report of one loop, at most so long for the stop. -/
def loopFor (r : Rehearsal) (m : Method) (limit : Nat) : Rehearsal × Option LoopReport :=
  let (r, report) := (r.untilStop (r.now + limit)).awaitReport
  (r, report.bind (·.loopFor m))

/-- Starts and waits for the report. -/
def run (r : Rehearsal) (limit : Nat) : Rehearsal × Except RunFault (Option RunReport) :=
  let last := r.now + limit
  let (r, fault) := r.launch
  match fault with
  | some fault => (r, .error fault)
  | none =>
    let r := if r.stopped || limit = 0 then r else (r.work true).pass last true
    let (r, report) :=
      if r.stopped then r.awaitReportBefore last else ({ r with now := last }.settle, none)
    (r, .ok report)

/-- Triggers that nobody is left to take are lost. -/
def raise (r : Rehearsal) (count : Nat) : Rehearsal :=
  if r.lifecycle.takesTriggers then { r with triggers := r.triggers + count } else r

def fire (r : Rehearsal) (count : Nat) : Rehearsal × Result :=
  if r.canFire then (r.raise count, .fired (.replicate count (some r.lifecycle.takesTriggers)))
  else (r, .fired (.replicate count none))

/-- The server, if a connection to it can be made, or what a caller sees instead. -/
def connect (r : Rehearsal) : Except Result Server :=
  match r.lifecycle.server with
  | none => .error .noListener
  | some s => if !s.isListening || r.network.unreachable.isSome then .error .refused else .ok s

/-- Bytes arrive at the server on connection `n`. -/
def deliver (r : Rehearsal) (s : Server) (n : Nat) (bytes : Wire.Bytes) (closed : Bool) :
    Rehearsal :=
  let done := s.arrive r.lifecycle.stop n bytes closed
  let r := if done.fired then r.raise 1 else r
  (r.setServer done.server).trigger done.stop.reason

def written (r : Rehearsal) (n : Nat) : Wire.Bytes :=
  match r.lifecycle.server with
  | none => []
  | some s => match s.connections[n]? with
    | none => []
    | some c => c.written

def call (r : Rehearsal) (bytes : Wire.Bytes) : Rehearsal × Result :=
  match r.connect with
  | .error result => (r, result)
  | .ok s =>
    let n := s.connections.length
    let r := r.deliver s.accept n bytes true
    (r, .reply (r.written n))

def hold (r : Rehearsal) (bytes : Wire.Bytes) : Rehearsal × Result :=
  match r.connect with
  | .error result => (r, result)
  | .ok s =>
    let r := r.deliver s.accept s.connections.length bytes false
    ({ r with held := r.held ++ [s.connections.length] }, .connection r.held.length)

/-- Closes a connection that was left open, after sending some more. -/
def close (r : Rehearsal) (connection : Nat) (bytes : Wire.Bytes) :
    Except ScriptFault (Rehearsal × Nat) :=
  match r.held[connection]?, r.lifecycle.server with
  | some n, some s => .ok (r.deliver s n bytes true, n)
  | _, _ => .error (.unknownConnection connection)

def take (r : Rehearsal) : Step → Except ScriptFault (Rehearsal × Result)
  | .start =>
    let (r, fault) := r.start
    match fault with
    | some fault => .ok (r, .fault fault)
    | none => .ok (r, .listening r.lifecycle.localEndpoint)
  | .advance millis => .ok (r.advanceTo (r.now + min millis horizon), .nothing)
  | .stop reason => .ok (r.trigger (some reason), .flag (!r.stopped))
  | .wait limit =>
    let (r, report) := r.wait limit
    .ok (r, .ofReport report)
  | .run limit =>
    let (r, outcome) := r.run limit
    match outcome with
    | .error fault => .ok (r, .fault fault)
    | .ok report => .ok (r, .ofReport report)
  | .loopFor m limit =>
    let (r, report) := r.loopFor m limit
    .ok (r, .loopReport report)
  | .fire count => .ok (r.fire count)
  | .closeTrigger => .ok ({ r with canFire := false }, .flag r.canFire)
  | .call bytes => .ok (r.call bytes)
  | .hold bytes => .ok (r.hold bytes)
  | .finish connection bytes => do
    let (r, n) ← r.close connection bytes
    return (r, .reply (r.written n))
  | .drop connection => do
    let (r, _) ← r.close connection []
    return (r, .nothing)

def observe (r : Rehearsal) (result : Result) : Observation :=
  ⟨r.now, r.lifecycle.state, r.lifecycle.stop.reason, r.sent.reverse, result⟩

/-- What is seen after each step. -/
def play (r : Rehearsal) : List Step → Except ScriptFault (List Observation)
  | [] => .ok []
  | s :: rest => do
    let (r, result) ← r.take s
    let r := r.settle
    let seen := r.observe result
    return seen :: (← play { r with sent := [] } rest)

end Rehearsal
end ScriptedPeer
