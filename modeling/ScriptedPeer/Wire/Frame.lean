import ScriptedPeer.Wire.Layout

/-!
# Frames

A frame is the length of its body in four bytes, the most significant first, and then the body. A
body is at most one mebibyte long, which the writer checks on the body and the reader on the
length. Bytes of a body that its value does not use are ignored.
-/

namespace ScriptedPeer.Wire

inductive Fault where
  | body (why : BodyFault)
  | tooLarge (limit actual : Nat)
  | truncated (expected actual : Nat)
  deriving DecidableEq, Repr

def Fault.message : Fault → String
  | .body why => "Frame body encoding failed: " ++ why.message
  | .tooLarge limit actual => s!"Frame too large (max {limit}, got {actual})"
  | .truncated expected actual => s!"Truncated frame (expected {expected} bytes, got {actual})"

namespace Frame

def headerSize : Nat := 4

def maxBody : Nat := 1048576

def header (length : Nat) : Bytes := (littleEndian headerSize length).reverse

/-- The length that a header gives, if a body may be as long. -/
def bodyLength (header : Bytes) : Except Fault Nat :=
  let length := ofLittleEndian header.reverse
  if length ≤ maxBody then .ok length else .error (.tooLarge maxBody length)

variable {α : Type}

def encode (l : Layout α) (a : α) : Except Fault Bytes :=
  let body := l.write a
  if body.length ≤ maxBody then .ok (header body.length ++ body)
  else .error (.tooLarge maxBody body.length)

/-- The value at the front of a body. -/
def decodeBody (l : Layout α) (body : Bytes) : Except Fault α :=
  match l.read body with
  | .ok (a, _) => .ok a
  | .error why => .error (.body why)

/-- The frame at the front of the bytes, and how many of them it takes. -/
def decode (l : Layout α) (bs : Bytes) : Except Fault (α × Nat) := do
  let some (head, rest) := split? headerSize bs | .error (.truncated headerSize bs.length)
  let length ← bodyLength head
  let some (body, _) := split? length rest
    | .error (.truncated (headerSize + length) bs.length)
  let a ← decodeBody l body
  return (a, headerSize + length)

/-- Frames back to back, at most `count`, up to the end of the bytes or the first fault. -/
def decodeUpTo (l : Layout α) : Nat → Bytes → List (α × Nat) × Option Fault
  | 0, _ => ([], none)
  | count + 1, bs => match decode l bs with
    | .error fault => ([], some fault)
    | .ok (a, used) =>
      let rest := bs.drop used
      if rest.isEmpty then ([(a, used)], none)
      else
        let more := decodeUpTo l count rest
        ((a, used) :: more.1, more.2)

/-- All frames of the bytes, which hold fewer of them than bytes; no bytes at all are a frame cut
short. -/
def decodeAll (l : Layout α) (bs : Bytes) : List (α × Nat) × Option Fault :=
  decodeUpTo l (bs.length + 1) bs

end Frame
end ScriptedPeer.Wire
