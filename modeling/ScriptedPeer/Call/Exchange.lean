import ScriptedPeer.Call.Reading

/-!
# Exchanges

The calling side writes the frames of its request and reads one frame back. A reply of the method
called is the only success.
-/

namespace ScriptedPeer.Call

/-- The bytes of the frames up to the first that cannot be encoded, and why it cannot. -/
def write : List ClientFrame → Wire.Bytes × Option Wire.Fault
  | [] => ([], none)
  | f :: rest => match Wire.Frame.encode .clientFrame f with
    | .error fault => ([], some fault)
    | .ok bytes =>
      let more := write rest
      (bytes ++ more.1, more.2)

def unexpected (expected actual : Method) : CallFault :=
  .unexpectedReply expected.name actual.name

/-- What an answer means to a caller of `m`, when nothing follows it. -/
def receive (m : Method) (answer : Wire.Pieces) : Except CallFault Reply :=
  match Wire.readFrame .serverFrame answer with
  | .frame (.reply reply) _ =>
    if reply.method = m then .ok reply else .error (unexpected m reply.method)
  | .frame (.unimplemented served) _ => .error (.unimplemented served)
  | .nothing => .error (.replyWithheld m)
  | .part => .error .earlyEnd
  | .refused fault => .error (.wire fault)

/-- Somebody who is called. -/
inductive Callee where
  /-- Sends these bytes, however the call goes, and then closes the connection or leaves it open. -/
  | answers (bytes : Wire.Pieces) (closes : Bool)
  | unreachable (address reason : String)

/-- What has come of a call, and how many milliseconds it took. -/
structure Outcome where
  sent : Wire.Bytes
  result : Except CallFault Reply
  elapsed : Nat

/-- Waits for an answer. Only an answer that is still incomplete makes the caller wait to the end of
its patience. -/
def await (patience : Nat) (m : Method) (answer : Wire.Pieces) (closes : Bool) :
    Except CallFault Reply × Nat :=
  match Wire.readFrame .serverFrame answer, closes with
  | .nothing, false | .part, false => (.error (.timeout patience), patience)
  | _, _ => (receive m answer, 0)

def place (patience : Nat) (r : Request) : Callee → Outcome
  | .unreachable address reason => ⟨[], .error (.connectionFailed address reason), 0⟩
  | .answers bytes closes => match write r.frames with
    | (sent, some fault) => ⟨sent, .error (.wire fault), 0⟩
    | (sent, none) =>
      let (result, elapsed) := await patience r.method bytes closes
      ⟨sent, result, elapsed⟩

/-- The identity in the acknowledgement of a call other than Greet. -/
def acknowledgement (m : Method) : Except CallFault Reply → Except CallFault String
  | .error fault => .error fault
  | .ok reply => match m, reply with
    | .heartbeat, .heartbeat identity => .ok identity
    | .tell, .tell identity => .ok identity
    | .narrate, .narrate identity => .ok identity
    | _, other => .error (unexpected m other.method)

/-- The greeting in the acknowledgement of a Greet. -/
def greeting : Except CallFault Reply → Except CallFault Greeting
  | .error fault => .error fault
  | .ok (.greet g) => .ok g
  | .ok other => .error (unexpected .greet other.method)

end ScriptedPeer.Call
