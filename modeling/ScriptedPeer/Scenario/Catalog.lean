import ScriptedPeer.Scenario.Plan

/-!
# The catalog

Every scenario there is, in the order of the identifiers, and the table that is printed for it.
-/

namespace ScriptedPeer.Catalog

/-- Answers only calls that repeat a number. -/
def onlyRepeats : ReplyRule := .bySequence .withhold .acknowledge

def idle (major minor : UInt8) (description : String) : Plan := { id := ⟨major, minor⟩, description }

def answering (major minor : UInt8) (description : String) (method : Method) (rule : ReplyRule) :
    Plan :=
  { id := ⟨major, minor⟩, description, replies := [{ method, rule }] }

def calling (major minor : UInt8) (description : String) (method : Method) (rhythm : Rhythm) :
    Plan :=
  { id := ⟨major, minor⟩, description, requests := [{ method, rhythm }] }

def plans : List Plan := [
  answering 1 1 "Always reply to Heartbeat" .heartbeat .always,
  answering 1 2 "Reply to Heartbeat until the reply limit, then stop" .heartbeat .countThenStop,
  idle 1 3 "Never reply to Heartbeat",
  calling 2 1 "Send Heartbeat every interval" .heartbeat .periodic,
  idle 2 2 "Never send Heartbeat",
  answering 3 1 "Always reply to Greet" .greet .always,
  idle 3 2 "Never reply to Greet",
  calling 4 1 "Send Greet every interval until the first reply or the attempt limit" .greet
    (.bounded .greetAttempts true .endLoop),
  idle 4 2 "Never send Greet",
  answering 5 1 "Always reply to Tell" .tell .always,
  answering 5 2 "Reply to a Tell only when its sequence number is repeated" .tell onlyRepeats,
  idle 5 3 "Never reply to Tell",
  { id := ⟨6, 1⟩
    description := "Always reply to Tell and send a Tell back every n-th received"
    replies := [{ method := .tell, rule := .always, echo := true }]
    requests := [{ method := .tell, rhythm := .echo }] },
  calling 6 2 "Send a bounded burst of Tells, then stop" .tell
    (.bounded .requestBound false .stopProcess),
  idle 6 3 "Never send Tell",
  answering 7 1 "Always reply to Narrate" .narrate .always,
  answering 7 2 "Reply to a Narrate only when its first sequence number is repeated" .narrate
    onlyRepeats,
  idle 7 3 "Never reply to Narrate",
  calling 8 1 "Send a single Narrate stream" .narrate .single,
  idle 8 2 "Never send Narrate"]

def find? (id : ScenarioId) : Option Plan := plans.find? (·.id == id)

/-- The plan with the identifier that the text spells. Both faults name the text as it was given. -/
def lookup (id : String) : Except SettingsFault Plan := do
  match find? (← ScenarioId.parse id) with
  | some plan => .ok plan
  | none => .error (.unknownScenario id)

def padEnd (width : Nat) (s : String) : String := s ++ "".pushn ' ' (width - s.length)

/-- Identifier, role and description, one line a scenario. -/
def line (p : Plan) : String :=
  padEnd 5 p.id.text ++ " " ++ padEnd 14 p.role.name ++ " " ++ p.description ++ "\n"

def table : String := plans.foldl (fun out p => out ++ line p) ""

end ScriptedPeer.Catalog
