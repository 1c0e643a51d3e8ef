import ScriptedPeer.Rehearsal.Clock

/-!
# Shutting down a rehearsal

A shutdown awaits the tasks in order, and takes what time that needs. Without any time to wait it
only looks at them and dismisses those that are not over. It looks at so many tasks in one go; then
the others have a round, in which tasks that it has not come to yet may still end.
-/

namespace ScriptedPeer.Rehearsal

/-- The tasks that a shutdown awaits, in order. -/
def awaited (r : Rehearsal) : List Task := r.lifecycle.tasks.filter fun
  | .server => r.lifecycle.awaitsServer
  | .loop _ => r.lifecycle.awaitsLoops

def fateOf (r : Rehearsal) : Task → Fate
  | .server => (r.lifecycle.server.map (Lifecycle.serverFate r.now)).getD .ended
  | .loop n => (r.lifecycle.loops[n]?.map (Lifecycle.loopFate r.now)).getD .ended

def lookAt (r : Rehearsal) (task : Task) : Rehearsal :=
  if r.fateOf task = .ended then r else r.dismiss task

/-- Looks at the tasks in order, at the first `left` in one go. -/
def lookAtAll : Nat → List Task → Rehearsal → Rehearsal
  | _, [], r => r
  | 0, task :: rest, r => lookAtAll (longestTurn - 1) rest (r.round.lookAt task)
  | left + 1, task :: rest, r => lookAtAll left rest (r.lookAt task)

/-- Whether a shutdown would give up at once what is not over. -/
def hasNoTime (r : Rehearsal) : Bool :=
  r.stopped && r.lifecycle.report.isNone && r.lifecycle.drain = 0

/-- Shuts down, if the stop has been given. -/
def awaitReport (r : Rehearsal) : Rehearsal × Option RunReport :=
  let r := if r.hasNoTime then lookAtAll Lifecycle.mostAtOnce r.awaited r else r
  match r.lifecycle.waitForStop r.now with
  | some (report, lifecycle, now) => ({ r with lifecycle, now }, some report)
  | none => (r, none)

/-- Shuts down, but gives that up when it is not done before `last`. -/
def awaitReportBefore (r : Rehearsal) (last : Nat) : Rehearsal × Option RunReport :=
  if r.lifecycle.report.isSome || r.lifecycle.shutsDownBefore r.now last then r.awaitReport
  else ({ r with lifecycle := r.lifecycle.abandonShutdown r.now last }.advanceTo last, none)

end ScriptedPeer.Rehearsal
