import ScriptedPeer.Rehearsal.Script

/-!
# Turns

What can be done in a rehearsal at one instant is done in turns. The server and the loops stand in
line in the order in which they have begun to wait, and the first that can do something has its
turn. A turn ends when its task has to wait, or when it has taken so much that the others come
first; the task then goes to the end of the line. Turns come in rounds: a task that has broken off
its turn stands in line again only after the round, and a round has so many turns at most. Whoever
waits for the stop looks for it between the rounds.
-/

namespace ScriptedPeer

/-- Who stands in line. -/
inductive Task where
  | server
  | loop (number : Nat)
  deriving DecidableEq, Repr

/-- The tasks that have been started, in order. -/
def Lifecycle.tasks (l : Lifecycle) : List Task :=
  (l.server.map fun _ => Task.server).toList ++ (List.range l.loops.length).map Task.loop

structure Rehearsal where
  lifecycle : Lifecycle
  network : Network
  peer : Peer
  now : Nat := 0
  /-- The time of day that requests are stamped with. It stands still, so that rehearsals can be
  compared. -/
  timeOfDay : Timestamp := ⟨0⟩
  /-- Triggers raised and not yet taken. -/
  triggers : Nat := 0
  /-- Triggers can be raised from outside. -/
  canFire : Bool := false
  /-- In the order in which they get their turns. -/
  line : List Task := []
  /-- Tasks that have a turn to come, whatever there is to do: they have just begun, have broken off
  their last turn, or were given up. -/
  roused : List Task := []
  /-- Tasks that were given up. They leave with their next turn. -/
  dismissed : List Task := []
  /-- The connections left open, by their numbers at the server. -/
  held : List Nat := []
  /-- The requests sent since the last observation, the last first. -/
  sent : List Sent := []

namespace Rehearsal

def stopped (r : Rehearsal) : Bool := r.lifecycle.stop.isTriggered

def channel (r : Rehearsal) : Triggers := ⟨r.triggers, r.canFire || r.lifecycle.hasHook⟩

def setLoop (r : Rehearsal) (n : Nat) (l : RequestLoop) : Rehearsal :=
  { r with lifecycle := { r.lifecycle with loops := r.lifecycle.loops.set n l } }

def setServer (r : Rehearsal) (s : Server) : Rehearsal :=
  { r with lifecycle := { r.lifecycle with server := some s } }

def actionOf (r : Rehearsal) (l : RequestLoop) : RequestLoop.Action :=
  l.action r.now r.stopped r.channel

/-- Whether a task has a turn to come now. -/
def canAct (r : Rehearsal) (task : Task) : Bool :=
  task ∈ r.roused || match task with
    | .server => r.lifecycle.server.any (·.isBusy r.stopped)
    | .loop n => r.lifecycle.loops[n]?.any (r.actionOf · ≠ .rest)

/-- Makes a change. Tasks that have a turn to come because of it come after those that had one
anyway. -/
def rousing (r : Rehearsal) (change : Rehearsal → Rehearsal) : Rehearsal :=
  let (busy, idle) := r.line.partition r.canAct
  { change r with line := busy ++ idle }

/-- Gives the stop, if there is a reason. -/
def trigger (r : Rehearsal) (reason : Option StopReason) : Rehearsal :=
  match reason with
  | none => r
  | some reason => r.rousing fun r =>
    { r with lifecycle := { r.lifecycle with stop := r.lifecycle.stop.trigger reason } }

def dismiss (r : Rehearsal) (task : Task) : Rehearsal :=
  r.rousing fun r => { r with roused := task :: r.roused, dismissed := task :: r.dismissed }

def sendFrom (r : Rehearsal) (n : Nat) (l : RequestLoop) : Rehearsal :=
  let (reaction, peer) := r.peer.react l.method
  let r := r.setLoop n (l.send r.now (reaction.phase r.now))
  { r with
    peer
    triggers := if l.usesTrigger then r.triggers - 1 else r.triggers
    sent := ⟨r.now, n, l.request fun _ => r.timeOfDay⟩ :: r.sent }

/-- Lets loop `n` do what it is about to do. -/
def act (r : Rehearsal) (n : Nat) (l : RequestLoop) : RequestLoop.Action → Rehearsal
  | .rest => r
  | .send => r.sendFrom n l
  | .receive acknowledged =>
    let (l, reason) := l.receive acknowledged
    (r.setLoop n l).trigger reason
  | .finish why => r.setLoop n (l.finish why)
  | .crash => r.setLoop n l.crash

/-- A loop that has taken so much in one turn lets the others come first. -/
def longestTurn : Nat := 128

/-- A loop that can take `left` more goes on for at most `count` steps. Tells whether it broke off. -/
def goOn (n : Nat) : Nat → Nat → Rehearsal → Bool × Rehearsal
  | 0, _, r => (false, r)
  | count + 1, left, r =>
    match r.lifecycle.loops[n]? with
    | none => (false, r)
    | some l =>
      let action := r.actionOf l
      if left < l.cost action then (true, r)
      else if action = .rest then (false, r)
      else goOn n count (left - l.cost action) (r.act n l action)

/-- Every second step of a turn takes something, and the last may be free. -/
def stepsOfTurn : Nat := 2 * longestTurn + 2

def joinLine (r : Rehearsal) (task : Task) : Rehearsal := { r with line := r.line ++ [task] }

/-- Lets a task have its turn, and tells whether it broke off. -/
def turn (r : Rehearsal) (task : Task) : Bool × Rehearsal :=
  let r := { r with line := r.line.erase task, roused := r.roused.erase task }
  if task ∈ r.dismissed then (false, r)
  else match task with
    | .server => match r.lifecycle.server with
      | some s => (false, (r.setServer (s.attend r.stopped)).joinLine task)
      | none => (false, r)
    | .loop n =>
      let (brokeOff, r) := goOn n stepsOfTurn longestTurn r
      (brokeOff, if brokeOff then { r with roused := task :: r.roused } else r.joinLine task)

/-- At most `count` turns. The tasks in `brokenOff` join the line after the round, the last first. -/
def roundUpTo : Nat → List Task → Rehearsal → Rehearsal
  | 0, brokenOff, r => { r with line := r.line ++ brokenOff }
  | count + 1, brokenOff, r =>
    match r.line.find? r.canAct with
    | none => { r with line := r.line ++ brokenOff }
    | some task =>
      let (brokeOff, r) := r.turn task
      roundUpTo count (if brokeOff then task :: brokenOff else brokenOff) r

/-- A round has so many turns at most. -/
def longestRound : Nat := 61

def round (r : Rehearsal) : Rehearsal := roundUpTo longestRound [] r

/-- Nobody can do anything now. -/
def isSettled (r : Rehearsal) : Bool := r.line.all (!r.canAct ·)

/-- At most `count` rounds. Ends with the round that brings the stop if it is told to. -/
def workUpTo (untilStop : Bool) : Nat → Rehearsal → Rehearsal
  | 0, r => r
  | count + 1, r =>
    if r.isSettled || (untilStop && r.stopped) then r else workUpTo untilStop count r.round

/-- A bound on the steps that can be taken now, two of which may be the server's. -/
def stepsNow (r : Rehearsal) : Nat :=
  r.lifecycle.loops.foldl (fun n l => n + l.stepsAt r.now r.channel) 2

/-- Does what can be done now, in rounds each of which takes a step at least. -/
def work (r : Rehearsal) (untilStop : Bool) : Rehearsal := workUpTo untilStop r.stepsNow r

/-- Does everything that can be done now. -/
def settle (r : Rehearsal) : Rehearsal := r.work false

end Rehearsal
end ScriptedPeer
