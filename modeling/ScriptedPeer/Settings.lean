import ScriptedPeer.Text.Blank

/-!
# Settings

The numbers and names a scenario is played with. Every one of them has a default. Settings are
checked before anything is started: the identity has to show a character, and no number may be
zero, since a zero interval or limit would make a scenario that never acts or never pauses.
-/

namespace ScriptedPeer

/-- Durations are in milliseconds. -/
structure Settings where
  identity : String := "dummy"
  nickname : String := "dummy"
  /-- Replies after which a counting handler stops the process. -/
  replyLimit : UInt32 := 10
  /-- Time from one periodic request to the next. -/
  requestInterval : UInt64 := 2000
  /-- Requests that a bounded loop sends. -/
  requestBound : UInt32 := 5
  /-- Greetings sent before giving up on a first reply. -/
  greetAttempts : UInt32 := 5
  /-- Tells received for each Tell sent back. -/
  tellEvery : UInt32 := 3
  /-- Items in one Narrate stream. -/
  narrateLength : UInt32 := 3
  /-- Longest wait for the answer to a call. -/
  callTimeout : UInt64 := 1000
  /-- Longest wait for unfinished work at shutdown. -/
  drainTimeout : UInt64 := 3000
  deriving DecidableEq, Repr

inductive SettingsFault where
  | unknownScenario (id : String)
  | malformedScenario (id : String)
  | invalid (why : String)
  deriving DecidableEq, Repr

def SettingsFault.message : SettingsFault → String
  | .unknownScenario id => "Unknown scenario: " ++ id
  | .malformedScenario id => "Malformed scenario identifier: " ++ id
  | .invalid why => "Configuration validation error: " ++ why

namespace Settings

/-- Short durations, for trying scenarios out. -/
def testing : Settings := { requestInterval := 20, callTimeout := 200, drainTimeout := 200 }

/-- The numbers in the order in which they are checked. -/
def numbers (s : Settings) : List (String × Nat) :=
  [("reply_limit", s.replyLimit.toNat),
    ("request_bound", s.requestBound.toNat),
    ("greet_attempts", s.greetAttempts.toNat),
    ("tell_every_nth_received", s.tellEvery.toNat),
    ("narrate_messages", s.narrateLength.toNat),
    ("request_interval_ms", s.requestInterval.toNat),
    ("call_timeout_ms", s.callTimeout.toNat),
    ("drain_timeout_ms", s.drainTimeout.toNat)]

/-- Reports the first fault only. -/
def validate (s : Settings) : Except SettingsFault Unit :=
  if Text.trim s.identity.toList = [] then
    .error (.invalid "Identity must not be empty")
  else match s.numbers.find? (·.2 = 0) with
    | some (name, _) => .error (.invalid (name ++ " must be greater than 0"))
    | none => .ok ()

theorem validate_default : validate {} = .ok () := by rfl

end Settings
end ScriptedPeer
