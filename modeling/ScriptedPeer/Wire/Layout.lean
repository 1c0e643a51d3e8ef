import ScriptedPeer.Text.Utf8

/-!
# Layouts

A layout says how the values of a type stand in a sequence of bytes. It writes every value, and it
reads one off the front of any bytes and returns what follows, or says why there is none. Numbers
stand with their least significant byte first, text and lists after their length.
-/

namespace ScriptedPeer.Wire

abbrev Bytes := List UInt8

/-- Why bytes do not spell a value. -/
inductive BodyFault where
  | unexpectedEnd
  /-- The text is said to be longer than the bytes that are left. -/
  | textTooLong
  | unknownVariant (index count : Nat)
  | malformedText (fault : Text.Utf8.Fault)
  | other (why : String)
  deriving DecidableEq, Repr

def BodyFault.message : BodyFault → String
  | .unexpectedEnd => "io error: unexpected end of file"
  | .textTooLong => "io error: "
  | .unknownVariant index count =>
    s!"invalid value: integer \x60{index}\x60, expected variant index 0 <= i < {count}"
  | .malformedText fault => "string is not valid utf8: " ++ fault.message
  | .other why => why

/-- The first `n` bytes and the rest, if there are as many. -/
def split? (n : Nat) (bs : Bytes) : Option (Bytes × Bytes) :=
  let front := bs.take n
  if front.length = n then some (front, bs.drop n) else none

theorem split?_append (xs ys : Bytes) : split? xs.length (xs ++ ys) = some (xs, ys) := by
  simp [split?]

theorem split?_eq_some {n : Nat} {bs xs ys : Bytes} (h : split? n bs = some (xs, ys)) :
    bs = xs ++ ys ∧ xs.length = n := by
  simp only [split?] at h
  split at h
  · next hn => cases h; exact ⟨(List.take_append_drop n bs).symm, hn⟩
  · cases h

/-- The lowest `width` bytes of a number, the least significant first. -/
def littleEndian : Nat → Nat → Bytes
  | 0, _ => []
  | width + 1, n => UInt8.ofNat n :: littleEndian width (n / 256)

def ofLittleEndian : Bytes → Nat
  | [] => 0
  | b :: bs => b.toNat + 256 * ofLittleEndian bs

@[simp] theorem length_littleEndian (width n : Nat) : (littleEndian width n).length = width := by
  induction width generalizing n with
  | zero => rfl
  | succ w ih => simp [littleEndian, ih]

theorem ofLittleEndian_littleEndian (width n : Nat) (h : n < Nat.pow 256 width) :
    ofLittleEndian (littleEndian width n) = n := by
  induction width generalizing n with
  | zero =>
    have hn : n < 1 := h
    simp only [littleEndian, ofLittleEndian]
    omega
  | succ w ih =>
    have hq : n / 256 < Nat.pow 256 w := Nat.div_lt_of_lt_mul (by rw [Nat.mul_comm]; exact h)
    simp only [littleEndian, ofLittleEndian, ih _ hq, UInt8.toNat_ofNat']
    omega

theorem littleEndian_ofLittleEndian (bs : Bytes) :
    littleEndian bs.length (ofLittleEndian bs) = bs := by
  induction bs with
  | nil => rfl
  | cons b bs ih =>
    have hb : b.toNat < 256 := b.toNat_lt
    have low : UInt8.ofNat (b.toNat + 256 * ofLittleEndian bs) = b := by
      apply UInt8.toNat_inj.mp
      rw [UInt8.toNat_ofNat']
      omega
    have high : (b.toNat + 256 * ofLittleEndian bs) / 256 = ofLittleEndian bs := by omega
    simp only [List.length_cons, ofLittleEndian, littleEndian, low, high, ih]

theorem ofLittleEndian_lt (bs : Bytes) : ofLittleEndian bs < Nat.pow 256 bs.length := by
  induction bs with
  | nil => exact Nat.zero_lt_one
  | cons b bs ih =>
    have hb : b.toNat < 256 := b.toNat_lt
    have hp : Nat.pow 256 (bs.length + 1) = Nat.pow 256 bs.length * 256 := rfl
    simp only [List.length_cons, ofLittleEndian, hp]
    omega

structure Layout (α : Type) where
  write : α → Bytes
  read : Bytes → Except BodyFault (α × Bytes)

namespace Layout

variable {α β : Type}

/-- Reads a value and changes it into another. -/
def readAs (l : Layout α) (f : α → β) (bs : Bytes) : Except BodyFault (β × Bytes) :=
  match l.read bs with
  | .ok (a, rest) => .ok (f a, rest)
  | .error fault => .error fault

/-- A number of `width` bytes. -/
def number (width : Nat) : Layout Nat where
  write := littleEndian width
  read bs := match split? width bs with
    | some (front, rest) => .ok (ofLittleEndian front, rest)
    | none => .error .unexpectedEnd

/-- The layout of a type whose values are told apart by those of another one. -/
def via (l : Layout α) (f : α → β) (g : β → α) : Layout β where
  write b := l.write (g b)
  read := l.readAs f

def word16 : Layout UInt16 := (number 2).via UInt16.ofNat UInt16.toNat
def word32 : Layout UInt32 := (number 4).via UInt32.ofNat UInt32.toNat
def word64 : Layout UInt64 := (number 8).via UInt64.ofNat UInt64.toNat

/-- One value after the other. -/
def pair (l : Layout α) (m : Layout β) : Layout (α × β) where
  write p := l.write p.1 ++ m.write p.2
  read bs := match l.read bs with
    | .error fault => .error fault
    | .ok (a, rest) => m.readAs (a, ·) rest

def utf8 (s : String) : Bytes := s.toUTF8.data.toList

/-- The length in bytes, then the text in UTF-8. -/
def text : Layout String where
  write s := littleEndian 8 (utf8 s).length ++ utf8 s
  read bs := match (number 8).read bs with
    | .error fault => .error fault
    | .ok (length, rest) => match split? length rest with
      | none => .error .textTooLong
      | some (front, rest) => match String.fromUTF8? front.toByteArray with
        | some s => .ok (s, rest)
        | none => .error (.malformedText ((Text.Utf8.fault front).getD (.incomplete length)))

/-- Reads `count` values one after the other; `before` holds those already read, the last first. -/
def readMany (l : Layout α) : Nat → List α → Bytes → Except BodyFault (List α × Bytes)
  | 0, before, bs => .ok (before.reverse, bs)
  | count + 1, before, bs => match l.read bs with
    | .error fault => .error fault
    | .ok (a, rest) => readMany l count (a :: before) rest

/-- The number of values, then the values. -/
def list (l : Layout α) : Layout (List α) where
  write as := littleEndian 8 as.length ++ as.flatMap l.write
  read bs := match (number 8).read bs with
    | .error fault => .error fault
    | .ok (count, rest) => readMany l count [] rest

/-- The number of a variant as it stands before the variant's own values. -/
def tag (index : Nat) : Bytes := littleEndian 4 index

/-- Reads the number of a variant and then its values. `variant` knows the numbers below `count`. -/
def readTagged (count : Nat) (variant : Nat → Option (Bytes → Except BodyFault (α × Bytes)))
    (bs : Bytes) : Except BodyFault (α × Bytes) :=
  match (number 4).read bs with
  | .error fault => .error fault
  | .ok (index, rest) => match variant index with
    | some read => read rest
    | none => .error (.unknownVariant index count)

end Layout
end ScriptedPeer.Wire
