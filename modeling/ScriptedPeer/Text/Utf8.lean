/-!
# Where bytes stop being UTF-8

`fault` scans bytes from the left and says where the first ill-formed sequence begins and how many
of its bytes could still have begun a character. It takes each lead byte with the continuation
bytes that Unicode's table of well-formed sequences allows after it.
-/

namespace ScriptedPeer.Text.Utf8

inductive Fault where
  /-- The `length` bytes from `index` on begin no character. -/
  | invalid (length index : Nat)
  /-- The bytes end inside the sequence that begins at `index`. -/
  | incomplete (index : Nat)
  deriving DecidableEq, Repr

def Fault.message : Fault → String
  | .invalid length index => s!"invalid utf-8 sequence of {length} bytes from index {index}"
  | .incomplete index => s!"incomplete utf-8 byte sequence from index {index}"

def isTail (b : UInt8) : Bool := 0x80 ≤ b && b ≤ 0xbf

/-- How many bytes the sequence has that `b` begins; zero when it begins none. -/
def width (b : UInt8) : Nat :=
  if b < 0x80 then 1
  else if 0xc2 ≤ b && b ≤ 0xdf then 2
  else if 0xe0 ≤ b && b ≤ 0xef then 3
  else if 0xf0 ≤ b && b ≤ 0xf4 then 4
  else 0

/-- The second byte is restricted after the four lead bytes at the edges of the table. -/
def mayFollow (lead second : UInt8) : Bool :=
  isTail second &&
  (lead != 0xe0 || 0xa0 ≤ second) && (lead != 0xed || second ≤ 0x9f) &&
  (lead != 0xf0 || 0x90 ≤ second) && (lead != 0xf4 || second ≤ 0x8f)

/-- The first fault of bytes that begin at index `i` of the whole. -/
def faultFrom (i : Nat) : List UInt8 → Option Fault
  | [] => none
  | a :: rest =>
    match width a with
    | 0 => some (.invalid 1 i)
    | 1 => faultFrom (i + 1) rest
    | w =>
      match rest with
      | [] => some (.incomplete i)
      | b :: rest =>
        if !mayFollow a b then some (.invalid 1 i)
        else if w = 2 then faultFrom (i + 2) rest
        else match rest with
          | [] => some (.incomplete i)
          | c :: rest =>
            if !isTail c then some (.invalid 2 i)
            else if w = 3 then faultFrom (i + 3) rest
            else match rest with
              | [] => some (.incomplete i)
              | d :: rest =>
                if !isTail d then some (.invalid 3 i) else faultFrom (i + 4) rest

def fault (bs : List UInt8) : Option Fault := faultFrom 0 bs

@[simp] theorem fault_nil : fault [] = none := rfl

end ScriptedPeer.Text.Utf8
