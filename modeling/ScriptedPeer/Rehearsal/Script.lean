import ScriptedPeer.Lifecycle
import ScriptedPeer.Wire.Values

/-!
# Scripts

What a rehearsal is made of: the reactions of the peer that is called, the steps that are taken, and
what is observed after each.
-/

namespace ScriptedPeer

/-- How the peer reacts to one call. -/
inductive Reaction where
  | atOnce (acknowledged : Bool)
  | after (millis : Nat) (acknowledged : Bool)
  | hangs
  /-- The call breaks the loop that makes it. -/
  | crashes
  deriving DecidableEq, Repr

inductive Peer where
  /-- One reaction a call, for each method; calls after the last are acknowledged at once. -/
  | scripted (reactions : ByMethod (List Reaction))
  /-- An endpoint where nobody answers. -/
  | absent
  /-- Somebody of whom only time will show how they react. -/
  | remote
  deriving DecidableEq, Repr

namespace Peer

/-- The reaction to the next call of a method, and the peer after it. -/
def react (p : Peer) (m : Method) : Reaction × Peer :=
  match p with
  | scripted reactions => match reactions.get m with
    | [] => (.atOnce true, p)
    | r :: rest => (r, scripted (reactions.set m rest))
  | absent => (.atOnce false, p)
  | remote => (.hangs, p)

end Peer

def Reaction.phase (r : Reaction) (now : Nat) : Phase :=
  match r with
  | atOnce acknowledged => .calling (.atOnce acknowledged)
  | after millis acknowledged => .calling (.at (now + millis) acknowledged)
  | hangs => .calling .never
  | crashes => .crashed

inductive Step where
  | start
  | advance (millis : Nat)
  | stop (reason : StopReason)
  /-- Waits for the stop, at most so long, and then for the report. -/
  | wait (limit : Nat)
  /-- Starts, and waits for the report, at most so long. -/
  | run (limit : Nat)
  /-- Waits as `wait` does, and asks for the report of one loop. -/
  | loopFor (method : Method) (limit : Nat)
  /-- Raises triggers from outside. -/
  | fire (count : Nat)
  | closeTrigger
  /-- Makes a connection, sends everything, and reads the answer. -/
  | call (bytes : Wire.Bytes)
  /-- Makes a connection, sends something, and leaves it open. -/
  | hold (bytes : Wire.Bytes)
  /-- Sends the rest on a connection that was left open, and reads the answer. -/
  | finish (connection : Nat) (bytes : Wire.Bytes)
  | drop (connection : Nat)
  deriving DecidableEq, Repr

inductive Result where
  | nothing
  | listening (endpoint : Option Endpoint)
  | fault (fault : RunFault)
  | flag (value : Bool)
  | pending
  | report (report : RunReport)
  | loopReport (report : Option LoopReport)
  /-- For each trigger whether it was taken; none when nothing can be raised any more. -/
  | fired (taken : List (Option Bool))
  | noListener
  | refused
  | reply (bytes : Wire.Bytes)
  | connection (number : Nat)
  deriving DecidableEq, Repr

def Result.ofReport : Option RunReport → Result
  | some r => report r
  | none => pending

/-- A request, the time when it was sent, and the loop that sent it. -/
structure Sent where
  time : Nat
  loop : Nat
  request : Request
  deriving DecidableEq, Repr

/-- What is seen after a step. -/
structure Observation where
  time : Nat
  state : RunState
  stop : Option StopReason
  /-- The requests sent during the step, in order. -/
  sent : List Sent
  result : Result
  deriving DecidableEq, Repr

/-- A step that refers to a connection that was never made. -/
inductive ScriptFault where
  | unknownConnection (number : Nat)
  deriving DecidableEq, Repr

end ScriptedPeer
