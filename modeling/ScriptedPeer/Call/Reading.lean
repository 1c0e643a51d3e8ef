import ScriptedPeer.Fault
import ScriptedPeer.Wire.Stream
import ScriptedPeer.Wire.Values

/-!
# Reading a call

The serving side reads one call from a connection: one frame, or the items of a Narrate up to the
closing frame. A closing frame alone is an empty stream. Whatever follows a complete call is left
unread.
-/

namespace ScriptedPeer

/-- The frames that the calling side writes for a request. -/
def Request.frames : Request → List ClientFrame
  | heartbeat identity => [.heartbeat identity]
  | greet greeting => [.greet greeting]
  | tell item => [.tell item]
  | narrate items => items.map .chunk ++ [.finish]

/-- How far a call has been read. -/
inductive CallReading where
  | call (request : Request) (rest : Wire.Pieces)
  /-- Nothing has arrived. -/
  | nothing
  /-- A frame has arrived in part. -/
  | part
  /-- A stream has arrived up to the end of an item, and its closing frame has not. -/
  | unclosed
  /-- This will not become a call, whatever follows. -/
  | refused (fault : CallFault)

namespace CallReading

def unexpectedFrame (f : ClientFrame) : CallFault :=
  .malformed .narrate (f.method.name ++ " frame inside the stream")

def missingEnd : CallFault := .malformed .narrate "stream closed before its end marker"

/-- Reads at most `count` frames of a stream; `before` holds the items read, the last first. -/
def items : Nat → List Item → Wire.Pieces → CallReading
  | 0, _, _ => .unclosed
  | count + 1, before, ps => match Wire.readFrame .clientFrame ps with
    | .frame (.chunk item) rest => items count (item :: before) rest
    | .frame .finish rest => .call (.narrate before.reverse) rest
    | .frame other _ => .refused (unexpectedFrame other)
    | .nothing => .unclosed
    | .part => .part
    | .refused fault => .refused (.wire fault)

/-- Every frame has a byte at least, so a stream holds fewer frames than bytes. -/
def read (ps : Wire.Pieces) : CallReading :=
  match Wire.readFrame .clientFrame ps with
  | .frame (.heartbeat identity) rest => .call (.heartbeat identity) rest
  | .frame (.greet greeting) rest => .call (.greet greeting) rest
  | .frame (.tell item) rest => .call (.tell item) rest
  | .frame .finish rest => .call (.narrate []) rest
  | .frame (.chunk item) rest => items (Wire.Pieces.size rest + 1) [item] rest
  | .nothing => .nothing
  | .part => .part
  | .refused fault => .refused (.wire fault)

/-- What has been read when nothing more will arrive: a call and what follows it, or nothing at
all, or a fault. -/
def atEnd : CallReading → Except CallFault (Option (Request × Wire.Pieces))
  | call request rest => .ok (some (request, rest))
  | nothing => .ok none
  | part => .error .earlyEnd
  | unclosed => .error missingEnd
  | refused fault => .error fault

/-- Whether more bytes could change what has been read. -/
def isOpen : CallReading → Bool
  | nothing | part | unclosed => true
  | call .. | refused _ => false

end CallReading
end ScriptedPeer
