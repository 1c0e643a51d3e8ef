import ScriptedPeer.Handler
import ScriptedPeer.Scenario.Id

/-!
# Scenario plans

A plan says which methods a scenario answers, by what rule, and which methods it calls, in what
rhythm. It is plain data: limits and intervals come from the settings when it is wired.
-/

namespace ScriptedPeer

/-- What a bounded loop does when it has no request left. -/
inductive AtBound where
  | endLoop
  | stopProcess
  deriving DecidableEq, Repr

inductive ReplyRule where
  | always
  /-- As many replies as the reply limit, then stop. -/
  | countThenStop
  | bySequence (first duplicate : Verdict)
  deriving DecidableEq, Repr

structure ReplyPlan where
  method : Method
  rule : ReplyRule
  /-- Every so many calls received raise a trigger for an echoing loop. -/
  echo : Bool := false
  deriving DecidableEq, Repr

/-- The setting that bounds a loop. -/
inductive BoundSetting where
  | requestBound
  | greetAttempts
  deriving DecidableEq, Repr

inductive Rhythm where
  | periodic
  | bounded (bound : BoundSetting) (untilFirstReply : Bool) (atBound : AtBound)
  | single
  /-- One call for each trigger that an echoing handler raises. -/
  | echo
  deriving DecidableEq, Repr

structure RequestPlan where
  method : Method
  rhythm : Rhythm
  deriving DecidableEq, Repr

inductive Role where
  | server
  | client
  | serverAndClient
  /-- Neither answers nor calls, and waits to be stopped. -/
  | idle
  deriving DecidableEq, Repr

def Role.name : Role → String
  | server => "server"
  | client => "client"
  | serverAndClient => "server+client"
  | idle => "idle"

structure Plan where
  id : ScenarioId
  description : String
  replies : List ReplyPlan := []
  requests : List RequestPlan := []
  deriving DecidableEq, Repr

namespace Plan

def serves (p : Plan) : Bool := !p.replies.isEmpty

def calls (p : Plan) : Bool := !p.requests.isEmpty

def role (p : Plan) : Role :=
  match p.serves, p.calls with
  | true, false => .server
  | false, true => .client
  | true, true => .serverAndClient
  | false, false => .idle

end Plan
end ScriptedPeer
