import ScriptedPeer.Method
import ScriptedPeer.Settings
import ScriptedPeer.Wire.Frame

/-!
# Faults

Why a call fails, and why a run cannot be set up or started. Each fault knows its wording.
-/

namespace ScriptedPeer

/-- Why a single call fails. A request loop counts the failure and goes on. -/
inductive CallFault where
  | connectionFailed (address reason : String)
  | network (why : String)
  | timeout (millis : Nat)
  | unimplemented (method : Method)
  | replyWithheld (method : Method)
  | unexpectedReply (expected actual : String)
  | wire (fault : Wire.Fault)
  | malformed (method : Method) (why : String)
  deriving DecidableEq, Repr

namespace CallFault

/-- The connection ended inside a frame. -/
def earlyEnd : CallFault := .network "early eof"

def message : CallFault → String
  | connectionFailed address reason => s!"Connection failed to {address}: {reason}"
  | network why => s!"Network I/O error: {why}"
  | timeout millis => s!"Call timeout after {millis}ms"
  | unimplemented m => s!"Method {m.name} is not served by the peer"
  | replyWithheld m => s!"Peer closed the {m.name} call without replying"
  | unexpectedReply expected actual => s!"Unexpected reply: expected {expected}, got {actual}"
  | wire fault => "Framing error: " ++ fault.message
  | malformed m why => s!"Malformed {m.name} call: {why}"

end CallFault

/-- Why a run fails as a whole. -/
inductive RunFault where
  | call (fault : CallFault)
  | wire (fault : Wire.Fault)
  | settings (fault : SettingsFault)
  | bind (address reason : String)
  deriving DecidableEq, Repr

namespace RunFault

def message : RunFault → String
  | call fault => "Transport error: " ++ fault.message
  | wire fault => "Wire error: " ++ fault.message
  | settings fault => "Configuration error: " ++ fault.message
  | bind address reason => s!"Failed to bind {address}: {reason}"

def invalid (why : String) : RunFault := .settings (.invalid why)

/-- Whether the fault was found before anything was started. -/
def isConfiguration : RunFault → Bool
  | settings _ => true
  | _ => false

end RunFault
end ScriptedPeer
