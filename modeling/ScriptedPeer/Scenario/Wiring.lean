import ScriptedPeer.Fault
import ScriptedPeer.RequestLoop
import ScriptedPeer.ServiceTable

/-!
# Wiring

Wiring turns a plan into the handlers and loops of one run, with limits, intervals and texts from
the settings. Handlers and loops are new each time, so no count is carried from run to run. Only the
first echoing loop gets the triggers that the handlers raise.
-/

namespace ScriptedPeer

/-- What takes part in one run. There is no table when the plan answers nothing. -/
structure Wiring where
  table : Option ServiceTable
  loops : List RequestLoop
  deriving DecidableEq, Repr

namespace Plan

def policy (s : Settings) : ReplyRule → ReplyPolicy
  | .always => .always
  | .countThenStop => .counting s.replyLimit
  | .bySequence first duplicate => .sequenced first duplicate

def handler (s : Settings) (profile : Profile) (r : ReplyPlan) : Handler :=
  { method := r.method
    policy := policy s r.rule
    profile
    hook := if r.echo then some (.ofPeriod s.tellEvery) else none }

def bound (s : Settings) : BoundSetting → UInt32
  | .requestBound => s.requestBound
  | .greetAttempts => s.greetAttempts

def cadence (s : Settings) : Rhythm → Cadence
  | .periodic => .periodic { interval := s.requestInterval.toNat }
  | .bounded b untilFirstReply atBound =>
    .bounded { interval := s.requestInterval.toNat } { limit := bound s b } untilFirstReply atBound
  | .single => .single
  | .echo => .onTrigger .shared

def loop (s : Settings) (profile : Profile) (r : RequestPlan) : RequestLoop :=
  { method := r.method, cadence := cadence s r.rhythm, profile }

/-- A plan that calls needs a peer to call. -/
def wire (p : Plan) (s : Settings) (profile : Profile) (hasPeer : Bool) :
    Except RunFault Wiring :=
  if p.calls && !hasPeer then
    .error (.invalid s!"Scenario {p.id.text} sends requests but no peer is configured")
  else .ok {
    table := if p.serves then some (.ofHandlers (p.replies.map (handler s profile))) else none
    loops := RequestLoop.shareTriggers .shared (p.requests.map (loop s profile)) }

end Plan
end ScriptedPeer
