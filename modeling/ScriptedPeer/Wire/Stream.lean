import ScriptedPeer.Wire.Frame

/-!
# Frames from a stream

Bytes arrive in pieces, divided anywhere. `readFrame` takes one frame off the front of what has
arrived. It looks at the first byte alone, because a stream that ends before a frame has begun has
ended properly, and one that ends inside a frame has not. How the bytes are divided does not matter
to what is read.
-/

namespace ScriptedPeer.Wire

/-- What has arrived of a stream, in order. -/
abbrev Pieces := List Bytes

namespace Pieces

/-- The next `n` bytes and what follows them, if as many have arrived. -/
def take? (n : Nat) : Pieces → Option (Bytes × Pieces)
  | [] => if n = 0 then some ([], []) else none
  | piece :: rest =>
    let front := piece.take n
    if front.length = n then some (front, piece.drop n :: rest)
    else match take? (n - front.length) rest with
      | some (more, rest) => some (front ++ more, rest)
      | none => none

def size : Pieces → Nat
  | [] => 0
  | piece :: rest => piece.length + size rest

end Pieces

/-- What there is at the front of a stream. -/
inductive Reading (α : Type) where
  | frame (value : α) (rest : Pieces)
  /-- Nothing has arrived. -/
  | nothing
  /-- Only a part of a frame has arrived. -/
  | part
  | refused (fault : Fault)

variable {α : Type}

def readBody (l : Layout α) (header : Bytes) (rest : Pieces) : Reading α :=
  match Frame.bodyLength header with
  | .error fault => .refused fault
  | .ok length => match Pieces.take? length rest with
    | none => .part
    | some (body, rest) => match Frame.decodeBody l body with
      | .error fault => .refused fault
      | .ok value => .frame value rest

def readFrame (l : Layout α) (ps : Pieces) : Reading α :=
  match Pieces.take? 1 ps with
  | none => .nothing
  | some (first, rest) => match Pieces.take? (Frame.headerSize - 1) rest with
    | none => .part
    | some (others, rest) => readBody l (first ++ others) rest

end ScriptedPeer.Wire
