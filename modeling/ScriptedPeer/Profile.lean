import ScriptedPeer.Endpoint
import ScriptedPeer.Message
import ScriptedPeer.Settings

/-!
# Profiles

Who the peer claims to be. Every request it sends and every reply it gives is made here, from the
identity and nickname of the settings and the address it advertises.
-/

namespace ScriptedPeer

structure Profile where
  identity : String
  nickname : String
  address : Endpoint
  /-- Items in one Narrate stream. -/
  narrateLength : Nat
  deriving DecidableEq, Repr

namespace Profile

def ofSettings (s : Settings) (address : Endpoint) : Profile :=
  ⟨s.identity, s.nickname, address, s.narrateLength.toNat⟩

def greeting (p : Profile) : Greeting := ⟨p.nickname, p.identity, p.address.text⟩

/-- The acknowledgement of a call. -/
def reply (p : Profile) : Method → Reply
  | .heartbeat => .heartbeat p.identity
  | .greet => .greet p.greeting
  | .tell => .tell p.identity
  | .narrate => .narrate p.identity

@[simp] theorem method_reply (p : Profile) (m : Method) : (p.reply m).method = m := by
  cases m <;> rfl

def tellItem (p : Profile) (sequence : SequenceNumber) (time : Timestamp) : Item :=
  ⟨p.identity, s!"tell {sequence.value.toNat} from {p.nickname}", sequence, time⟩

/-- The last `count` items of a stream, the first of which has the given number. The clock is looked
at once for each item. -/
def narrateLines (p : Profile) (clock : Nat → Timestamp) : Nat → SequenceNumber → List Item
  | 0, _ => []
  | count + 1, sequence =>
    let line := p.narrateLength - count
    ⟨p.identity, s!"narrate line {line} of {p.narrateLength}", sequence, clock (line - 1)⟩ ::
      narrateLines p clock count sequence.next

/-- A whole stream, numbered from `first` on. -/
def narrateItems (p : Profile) (first : SequenceNumber) (clock : Nat → Timestamp) : List Item :=
  p.narrateLines clock p.narrateLength first

/-- The request of a method, numbered from `first` on where the method is. The clock tells the time
of day whenever it is looked at. -/
def request (p : Profile) (m : Method) (first : SequenceNumber) (clock : Nat → Timestamp) :
    Request :=
  match m with
  | .heartbeat => .heartbeat p.identity
  | .greet => .greet p.greeting
  | .tell => .tell (p.tellItem first (clock 0))
  | .narrate => .narrate (p.narrateItems first clock)

/-- How many sequence numbers a request of the method uses. -/
def numbersUsed (p : Profile) : Method → Nat
  | .heartbeat | .greet => 0
  | .tell => 1
  | .narrate => p.narrateLength

@[simp] theorem method_request (p : Profile) (m : Method) (first : SequenceNumber)
    (clock : Nat → Timestamp) : (p.request m first clock).method = m := by
  cases m <;> rfl

@[simp] theorem length_narrateLines (p : Profile) (clock : Nat → Timestamp) (count : Nat)
    (sequence : SequenceNumber) : (p.narrateLines clock count sequence).length = count := by
  induction count generalizing sequence with
  | zero => rfl
  | succ n ih => simp [narrateLines, ih]

end Profile
end ScriptedPeer
