import ScriptedPeer.Drain
import ScriptedPeer.Fault
import ScriptedPeer.Network
import ScriptedPeer.RequestLoop
import ScriptedPeer.Server

/-!
# Lifecycles

A lifecycle takes one scenario through its states: it is started, it runs until the stop is given,
and it is shut down, which leaves a report. The states are passed in one direction only. A lifecycle
that is stopped before it was started has started nothing and reports nothing. A shutdown can be
given up before it is done; what it was awaiting is then left to itself.
-/

namespace ScriptedPeer

inductive RunState where
  | starting
  | running
  | stopping
  | stopped
  deriving DecidableEq, Repr

namespace RunState

def name : RunState → String
  | starting => "Starting"
  | running => "Running"
  | stopping => "Stopping"
  | stopped => "Stopped"

def rank : RunState → Nat
  | starting => 0
  | running => 1
  | stopping => 2
  | stopped => 3

end RunState

structure RunReport where
  scenario : String
  state : RunState
  stopReason : StopReason
  /-- One entry a loop, in the order in which they were wired. -/
  loops : List LoopReport
  server : Option ServerStats
  /-- Some task was given up at the end of the drain. -/
  drainTimedOut : Bool
  deriving DecidableEq, Repr

def RunReport.loopFor (r : RunReport) (m : Method) : Option LoopReport :=
  r.loops.find? (·.method == m)

structure Lifecycle where
  scenario : String
  stop : StopSignal := {}
  /-- Longest time for unfinished work at shutdown. -/
  drain : Nat
  state : RunState := .starting
  /-- Where to listen and what to serve there, until it is started. -/
  listen : Option (Endpoint × ServiceTable) := none
  /-- The loops that have not been started. -/
  pending : List RequestLoop := []
  /-- Methods whose handling breaks down once they are served. -/
  broken : List Method := []
  server : Option Server := none
  /-- The loops that have been started. -/
  loops : List RequestLoop := []
  /-- No shutdown has let go of the server. -/
  awaitsServer : Bool := true
  /-- No shutdown has let go of the loops. -/
  awaitsLoops : Bool := true
  report : Option RunReport := none
  deriving DecidableEq, Repr

namespace Lifecycle

/-- The endpoint that is listened on. -/
def localEndpoint (l : Lifecycle) : Option Endpoint := l.server.map Server.endpoint

/-- Starts every loop. -/
def launch (l : Lifecycle) (now : Nat) : Lifecycle :=
  { l with state := .running, pending := [], loops := l.pending.map (·.start now) }

/-- Listens at the endpoint and starts the loops. The endpoint is tried once only: when nobody can
listen there, nothing is started, and the next start goes on without it. -/
def start (l : Lifecycle) (network : Network) (now : Nat) : Lifecycle × Option RunFault :=
  match l.state with
  | .starting => match l.listen with
    | none => (l.launch now, none)
    | some (endpoint, table) =>
      let l := { l with listen := none }
      match network.listen endpoint with
      | .error fault => (l, some fault)
      | .ok port =>
        let server := { endpoint := endpoint.withPort port, table, broken := l.broken }
        ({ l with server := some server }.launch now, none)
  | .running | .stopping | .stopped => (l, none)

/-- What becomes of a loop after the stop. Between two calls it is about to see the stop. -/
def loopFate (now : Nat) (l : RequestLoop) : Fate :=
  match l.phase with
  | .waiting | .calling (.atOnce _) => .ends now
  | .calling (.at time _) => .ends time
  | .calling .never => .lasts
  | .ended _ | .crashed | .aborted => .ended

/-- What becomes of the server after the stop, if nothing more arrives on its connections. Without
an open one it only has to see the stop. -/
def serverFate (now : Nat) (s : Server) : Fate :=
  if !s.isDrained then .lasts
  else if s.isListening then .ends now
  else .ended

/-- A loop that has ended after the stop. When its last call has come back it may have come to its
own end; otherwise it sees the stop. -/
def drained (l : RequestLoop) : RequestLoop :=
  match l.phase with
  | .calling (.atOnce acknowledged) | .calling (.at _ acknowledged) =>
    let l := (l.receive acknowledged).1
    if l.phase = .waiting then l.halt else l
  | .waiting => l.halt
  | .calling .never | .ended _ | .crashed | .aborted => l

def loopCourse (now : Nat) (l : RequestLoop) : Course RequestLoop := ⟨l, loopFate now l, drained l⟩

def serverCourse (now : Nat) (s : Server) : Course Server := ⟨s, serverFate now s, s⟩

def awaitedServer (l : Lifecycle) : Option Server := l.server.filter fun _ => l.awaitsServer

def awaitedLoops (l : Lifecycle) : List RequestLoop := if l.awaitsLoops then l.loops else []

/-- What a shutdown that begins at `now` has to await: the server first, then the loops in order. -/
def fates (l : Lifecycle) (now : Nat) : List Fate :=
  (l.awaitedServer.map (serverFate now)).toList ++ l.awaitedLoops.map (loopFate now)

def beginShutdown (l : Lifecycle) : Lifecycle := { l with state := .stopping }

/-- Awaits tasks that go these courses from `now` on, and the time when that is done. The server is
awaited first, then the loops in order. -/
def drainTasks (l : Lifecycle) (reason : StopReason) (now : Nat) (server : Option (Course Server))
    (loops : List (Course RequestLoop)) : Lifecycle × Nat :=
  let deadline := now + l.drain
  let (now', serverLate) := match server with
    | some c => Drain.await deadline now c.fate
    | none => (now, false)
  let server := match server with
    | some c => some (c.outcome Server.abort serverLate)
    | none => l.server
  let (done, lates) := Drain.awaitAll deadline now' (loops.map Course.fate)
  let loops := List.zipWith (Course.outcome RequestLoop.abort) loops lates
  let report := {
    scenario := l.scenario
    state := .stopped
    stopReason := reason
    loops := loops.map RequestLoop.report
    server := server.map Server.stats
    drainTimedOut := serverLate || lates.any id }
  ({ l with
    state := .stopped
    server
    loops := if l.awaitsLoops then loops else l.loops
    report := some report }, done)

/-- Awaits what is left from `now` on. -/
def endShutdown (l : Lifecycle) (reason : StopReason) (now : Nat) : Lifecycle × Nat :=
  l.drainTasks reason now (l.awaitedServer.map (serverCourse now))
    (l.awaitedLoops.map (loopCourse now))

def shutdown (l : Lifecycle) (reason : StopReason) (now : Nat) : Lifecycle × Nat :=
  l.beginShutdown.endShutdown reason now

/-- So many tasks that need no waiting can be awaited in one go with the stop. -/
def mostAtOnce : Nat := 127

/-- Whether a shutdown that begins at `now` is done before `last`. What ends at `last` itself comes
too late, but a drain that has run out by then is over, and so is one with nothing to wait for, as
far as one go reaches. -/
def shutsDownBefore (l : Lifecycle) (now last : Nat) : Bool :=
  let fates := l.fates now
  (now < last || fates.length ≤ mostAtOnce) &&
    (fates.all (· == .ended) || now + l.drain ≤ last ||
      (Drain.awaitAll (now + l.drain) now fates).1 < last)

/-- Whether a shutdown that begins at `now` still awaits the server at `last`. -/
def awaitsServerAt (l : Lifecycle) (now last : Nat) : Bool :=
  match l.awaitedServer with
  | none => false
  | some s => match serverFate now s with
    | .ended => false
    | .ends time => last ≤ time
    | .lasts => true

/-- Gives up a shutdown that began at `now` before it is done at `last`. The tasks that it has come
to are left to themselves: the server, and once that is over, every loop. -/
def abandonShutdown (l : Lifecycle) (now last : Nat) : Lifecycle :=
  { l.beginShutdown with
    awaitsServer := false
    awaitsLoops := l.awaitsLoops && l.awaitsServerAt now last }

/-- Waits for the stop that has been given, and the time when that is done. Once there is a report,
it stays as it is. Without a stop the wait goes on. -/
def waitForStop (l : Lifecycle) (now : Nat) : Option (RunReport × Lifecycle × Nat) :=
  match l.report, l.stop.reason with
  | some report, _ => some (report, l, now)
  | none, none => none
  | none, some reason =>
    let (l, now) := l.shutdown reason now
    l.report.map fun report => (report, l, now)

/-- The server serves until the stop, and after it until its connections are closed. -/
def isServing (l : Lifecycle) (s : Server) : Bool := !l.stop.isTriggered || !s.isDrained

/-- Whether a handler is left that could fire a trigger. -/
def hasHook (l : Lifecycle) : Bool :=
  match l.listen, l.server with
  | some (_, table), _ => table.hasHook
  | none, some s => l.isServing s && s.table.hasHook
  | none, none => false

/-- Whether a loop is left that could take a trigger. -/
def takesTriggers (l : Lifecycle) : Bool :=
  (l.pending ++ l.loops).any fun r => r.usesTrigger && !r.isOver

end Lifecycle
end ScriptedPeer
