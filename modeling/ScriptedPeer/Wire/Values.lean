import ScriptedPeer.Endpoint
import ScriptedPeer.Message
import ScriptedPeer.Settings
import ScriptedPeer.Wire.Layout

/-!
# Values on the wire

The frames of a call and the layout of every value that is exchanged. The calling side writes one
frame for a Heartbeat, a Greet or a Tell, and for a Narrate one frame an item and a closing one. The
serving side answers with a single frame or with none.
-/

namespace ScriptedPeer

inductive ClientFrame where
  | heartbeat (identity : String)
  | greet (greeting : Greeting)
  | tell (item : Item)
  /-- One item of a Narrate stream. -/
  | chunk (item : Item)
  /-- The end of a Narrate stream. -/
  | finish
  deriving DecidableEq, Repr

def ClientFrame.method : ClientFrame → Method
  | heartbeat _ => .heartbeat
  | greet _ => .greet
  | tell _ => .tell
  | chunk _ | finish => .narrate

inductive ServerFrame where
  | reply (reply : Reply)
  | unimplemented (method : Method)
  deriving DecidableEq, Repr

namespace ServerFrame

def method : ServerFrame → Method
  | reply r => r.method
  | unimplemented m => m

end ServerFrame

namespace Wire.Layout

def sequence : Layout SequenceNumber := word64.via SequenceNumber.mk SequenceNumber.value

def timestamp : Layout Timestamp := word64.via Timestamp.mk Timestamp.millis

def greeting : Layout Greeting :=
  (text.pair (text.pair text)).via (fun (nickname, identity, address) =>
    ⟨nickname, identity, address⟩) (fun g => (g.nickname, g.identity, g.address))

def item : Layout Item :=
  (text.pair (text.pair (sequence.pair timestamp))).via
    (fun (identity, message, sequence, timestamp) => ⟨identity, message, sequence, timestamp⟩)
    (fun i => (i.identity, i.message, i.sequence, i.timestamp))

def endpoint : Layout Endpoint :=
  (text.pair word16).via (fun (host, port) => ⟨host, port⟩) (fun e => (e.host, e.port))

def items : Layout (List Item) := item.list

def settings : Layout Settings :=
  (text.pair (text.pair (word32.pair (word64.pair (word32.pair (word32.pair (word32.pair
    (word32.pair (word64.pair word64))))))))).via
    (fun (identity, nickname, replyLimit, requestInterval, requestBound, greetAttempts, tellEvery,
        narrateLength, callTimeout, drainTimeout) =>
      ⟨identity, nickname, replyLimit, requestInterval, requestBound, greetAttempts, tellEvery,
        narrateLength, callTimeout, drainTimeout⟩)
    (fun s => (s.identity, s.nickname, s.replyLimit, s.requestInterval, s.requestBound,
      s.greetAttempts, s.tellEvery, s.narrateLength, s.callTimeout, s.drainTimeout))

def method : Layout Method where
  write m := tag m.index
  read := readTagged 4 fun
    | 0 => some fun bs => .ok (.heartbeat, bs)
    | 1 => some fun bs => .ok (.greet, bs)
    | 2 => some fun bs => .ok (.tell, bs)
    | 3 => some fun bs => .ok (.narrate, bs)
    | _ => none

def reply : Layout Reply where
  write
    | .heartbeat identity => tag 0 ++ text.write identity
    | .greet g => tag 1 ++ greeting.write g
    | .tell identity => tag 2 ++ text.write identity
    | .narrate identity => tag 3 ++ text.write identity
  read := readTagged 4 fun
    | 0 => some (text.readAs .heartbeat)
    | 1 => some (greeting.readAs .greet)
    | 2 => some (text.readAs .tell)
    | 3 => some (text.readAs .narrate)
    | _ => none

def clientFrame : Layout ClientFrame where
  write
    | .heartbeat identity => tag 0 ++ text.write identity
    | .greet g => tag 1 ++ greeting.write g
    | .tell i => tag 2 ++ item.write i
    | .chunk i => tag 3 ++ item.write i
    | .finish => tag 4
  read := readTagged 5 fun
    | 0 => some (text.readAs .heartbeat)
    | 1 => some (greeting.readAs .greet)
    | 2 => some (item.readAs .tell)
    | 3 => some (item.readAs .chunk)
    | 4 => some fun bs => .ok (.finish, bs)
    | _ => none

def serverFrame : Layout ServerFrame where
  write
    | .reply r => tag 0 ++ reply.write r
    | .unimplemented m => tag 1 ++ method.write m
  read := readTagged 2 fun
    | 0 => some (reply.readAs .reply)
    | 1 => some (method.readAs .unimplemented)
    | _ => none

end Wire.Layout
end ScriptedPeer
