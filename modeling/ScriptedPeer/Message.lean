import ScriptedPeer.Method
import ScriptedPeer.Sequence

/-!
# Messages

What a call carries to the serving side, and what comes back. A request is a complete call: for
Narrate the whole stream in the order it was sent.
-/

namespace ScriptedPeer

/-- The way a peer introduces itself. -/
structure Greeting where
  nickname : String
  identity : String
  address : String
  deriving DecidableEq, Repr

/-- One numbered piece of chat. -/
structure Item where
  identity : String
  message : String
  sequence : SequenceNumber
  timestamp : Timestamp
  deriving DecidableEq, Repr

inductive Request where
  | heartbeat (identity : String)
  | greet (greeting : Greeting)
  | tell (item : Item)
  | narrate (items : List Item)
  deriving DecidableEq, Repr

namespace Request

def method : Request → Method
  | heartbeat _ => .heartbeat
  | greet _ => .greet
  | tell _ => .tell
  | narrate _ => .narrate

/-- The number by which a repeated call is recognised: that of the Tell, or of the first item of a
Narrate. Discovery calls and empty streams have none. -/
def key? : Request → Option SequenceNumber
  | heartbeat _ | greet _ => none
  | tell item => some item.sequence
  | narrate items => items.head?.map Item.sequence

end Request

inductive Reply where
  | heartbeat (identity : String)
  | greet (greeting : Greeting)
  | tell (identity : String)
  | narrate (identity : String)
  deriving DecidableEq, Repr

def Reply.method : Reply → Method
  | heartbeat _ => .heartbeat
  | greet _ => .greet
  | tell _ => .tell
  | narrate _ => .narrate

/-- What the serving side does with one call. -/
inductive Response where
  | reply (reply : Reply)
  /-- The call is closed without an answer. -/
  | withhold
  /-- Nobody here serves this method. -/
  | unimplemented (method : Method)
  deriving DecidableEq, Repr

end ScriptedPeer
