import ScriptedPeer.Wire.Values

/-!
# How values are spelled

A value is spelled by its fields one after the other, without anything between them. A field is a
number of two, four or eight bytes with the least significant byte first, or a text in UTF-8 after
its length; a variant stands behind its number, and the elements of a list behind their count. This
is said here of the fields of every type in the order in which they are declared, and the layouts
write nothing else.
-/

namespace ScriptedPeer.Wire

/-- What values are put together of on the wire. -/
inductive Atom where
  /-- Which variant of its type follows. -/
  | variant (index : Nat)
  /-- How many elements follow. -/
  | count (n : Nat)
  | word16 (w : UInt16)
  | word32 (w : UInt32)
  | word64 (w : UInt64)
  | text (s : String)

/-- A number of `width` bytes: byte `i` is its digit of weight `256 ^ i`. -/
def digits (width n : Nat) : Bytes := (List.range width).map fun i => UInt8.ofNat (n / Nat.pow 256 i)

def Atom.bytes : Atom → Bytes
  | variant index => digits 4 index
  | count n => digits 8 n
  | word16 w => digits 2 w.toNat
  | word32 w => digits 4 w.toNat
  | word64 w => digits 8 w.toNat
  | text s => digits 8 s.utf8ByteSize ++ s.toUTF8.data.toList

/-- The types whose values stand in bodies. -/
inductive BodyKind where
  | clientFrame
  | serverFrame
  | reply
  | method
  | endpoint
  | settings
  | items
  deriving DecidableEq, Repr

end Wire

open Wire

def Greeting.atoms (g : Greeting) : List Atom := [.text g.nickname, .text g.identity, .text g.address]

def Item.atoms (i : Item) : List Atom :=
  [.text i.identity, .text i.message, .word64 i.sequence.value, .word64 i.timestamp.millis]

def ClientFrame.atoms : ClientFrame → List Atom
  | heartbeat identity => [.variant 0, .text identity]
  | greet g => .variant 1 :: g.atoms
  | tell i => .variant 2 :: i.atoms
  | chunk i => .variant 3 :: i.atoms
  | finish => [.variant 4]

def Method.atom : Method → Atom
  | heartbeat => .variant 0
  | greet => .variant 1
  | tell => .variant 2
  | narrate => .variant 3

def Reply.atoms : Reply → List Atom
  | heartbeat identity => [.variant 0, .text identity]
  | greet g => .variant 1 :: g.atoms
  | tell identity => [.variant 2, .text identity]
  | narrate identity => [.variant 3, .text identity]

def ServerFrame.atoms : ServerFrame → List Atom
  | reply r => .variant 0 :: r.atoms
  | unimplemented m => [.variant 1, m.atom]

def Endpoint.atoms (e : Endpoint) : List Atom := [.text e.host, .word16 e.port]

def Settings.atoms (s : Settings) : List Atom :=
  [.text s.identity, .text s.nickname, .word32 s.replyLimit, .word64 s.requestInterval,
    .word32 s.requestBound, .word32 s.greetAttempts, .word32 s.tellEvery, .word32 s.narrateLength,
    .word64 s.callTimeout, .word64 s.drainTimeout]

namespace Wire

theorem digits_succ (width n : Nat) :
    digits (width + 1) n = UInt8.ofNat n :: digits width (n / 256) := by
  simp [digits, List.range_succ_eq_map, Nat.div_div_eq_div_mul, Nat.pow_succ, Nat.mul_comm]

/-- The bytes of a number are its digits to the base 256, the lowest first. -/
theorem littleEndian_eq_digits (width n : Nat) : littleEndian width n = digits width n := by
  induction width generalizing n with
  | zero => rfl
  | succ w ih => rw [littleEndian, digits_succ, ih]

namespace BodyKind

def Value : BodyKind → Type
  | clientFrame => ClientFrame
  | serverFrame => ServerFrame
  | reply => Reply
  | method => Method
  | endpoint => Endpoint
  | settings => Settings
  | items => List Item

def layout : (k : BodyKind) → Layout k.Value
  | clientFrame => .clientFrame
  | serverFrame => .serverFrame
  | reply => .reply
  | method => .method
  | endpoint => .endpoint
  | settings => .settings
  | items => .items

def atoms : (k : BodyKind) → k.Value → List Atom
  | clientFrame, (f : ClientFrame) => f.atoms
  | serverFrame, (f : ServerFrame) => f.atoms
  | reply, (r : Reply) => r.atoms
  | method, (m : Method) => [m.atom]
  | endpoint, (e : Endpoint) => e.atoms
  | settings, (s : Settings) => s.atoms
  | items, (is : List Item) => .count is.length :: is.flatMap Item.atoms

/-- The bytes that spell a value. -/
def spelling (k : BodyKind) (v : k.Value) : Bytes := (k.atoms v).flatMap Atom.bytes

end BodyKind

namespace Layout

variable {α β : Type} {l : Layout α} {m : Layout β} {p : α → List Atom} {q : β → List Atom}

/-- The layout writes its values as these atoms spell them. -/
def Writes (l : Layout α) (p : α → List Atom) : Prop := ∀ a, l.write a = (p a).flatMap Atom.bytes

/-- A value that is written as another is spelled as that one. -/
theorem Writes.via (hl : l.Writes p) (f : α → β) (g : β → α) :
    (l.via f g).Writes fun b => p (g b) := by
  intro b
  exact hl (g b)

/-- Two values are spelled one behind the other. -/
theorem Writes.pair (hl : l.Writes p) (hm : m.Writes q) :
    (l.pair m).Writes fun ab => p ab.1 ++ q ab.2 := by
  intro ab
  rw [List.flatMap_append, ← hl ab.1, ← hm ab.2]
  rfl

theorem Writes.list (hl : l.Writes p) :
    l.list.Writes fun as => .count as.length :: as.flatMap p := by
  intro as
  have hw : l.write = fun a => (p a).flatMap Atom.bytes := funext hl
  have he : as.flatMap l.write = (as.flatMap p).flatMap Atom.bytes := by
    rw [hw, List.flatMap_assoc]
  rw [List.flatMap_cons, ← he, Atom.bytes, ← littleEndian_eq_digits]
  rfl

theorem Writes.tagged (hl : l.Writes p) (index : Nat) (a : α) :
    tag index ++ l.write a = (.variant index :: p a).flatMap Atom.bytes := by
  rw [hl a, tag, littleEndian_eq_digits]
  rfl

theorem tag_eq (index : Nat) : tag index = [Atom.variant index].flatMap Atom.bytes := by
  rw [tag, littleEndian_eq_digits, List.flatMap_singleton, Atom.bytes]

/-- A word stands as the number that it is. -/
theorem word_writes {width : Nat} {f : Nat → α} {g : α → Nat} {atom : α → Atom}
    (h : ∀ w, (atom w).bytes = digits width (g w)) :
    ((number width).via f g).Writes fun w => [atom w] := by
  intro w
  rw [List.flatMap_singleton, h w, ← littleEndian_eq_digits]
  rfl

theorem word16_writes : word16.Writes fun w => [.word16 w] := word_writes fun _ => rfl

theorem word32_writes : word32.Writes fun w => [.word32 w] := word_writes fun _ => rfl

theorem word64_writes : word64.Writes fun w => [.word64 w] := word_writes fun _ => rfl

theorem text_writes : text.Writes fun s => [.text s] := by
  intro s
  rw [List.flatMap_singleton, Atom.bytes, ← littleEndian_eq_digits]
  rfl

theorem greeting_writes : greeting.Writes Greeting.atoms :=
  (text_writes.pair (text_writes.pair text_writes)).via _ _

theorem item_writes : item.Writes Item.atoms :=
  (text_writes.pair (text_writes.pair ((word64_writes.via _ _).pair (word64_writes.via _ _)))).via
    _ _

theorem endpoint_writes : endpoint.Writes Endpoint.atoms := (text_writes.pair word16_writes).via _ _

theorem settings_writes : settings.Writes Settings.atoms :=
  (text_writes.pair (text_writes.pair (word32_writes.pair (word64_writes.pair (word32_writes.pair
    (word32_writes.pair (word32_writes.pair (word32_writes.pair (word64_writes.pair
      word64_writes))))))))).via _ _

theorem method_writes : method.Writes fun m => [m.atom] := by
  intro m
  cases m <;> exact tag_eq _

theorem reply_writes : reply.Writes Reply.atoms := by
  intro r
  cases r with
  | greet g => exact greeting_writes.tagged 1 g
  | heartbeat identity | tell identity | narrate identity => exact text_writes.tagged _ identity

theorem clientFrame_writes : clientFrame.Writes ClientFrame.atoms := by
  intro f
  cases f with
  | heartbeat identity => exact text_writes.tagged 0 identity
  | greet g => exact greeting_writes.tagged 1 g
  | tell i | chunk i => exact item_writes.tagged _ i
  | finish => exact tag_eq 4

theorem serverFrame_writes : serverFrame.Writes ServerFrame.atoms := by
  intro f
  cases f with
  | reply r => exact reply_writes.tagged 0 r
  | unimplemented m => exact method_writes.tagged 1 m

end Layout

namespace BodyKind

/-- Whatever the type of a body is, it is written as it is spelled. -/
theorem write_eq_spelling (k : BodyKind) (v : k.Value) : k.layout.write v = k.spelling v := by
  cases k with
  | clientFrame => exact Layout.clientFrame_writes v
  | serverFrame => exact Layout.serverFrame_writes v
  | reply => exact Layout.reply_writes v
  | method => exact Layout.method_writes v
  | endpoint => exact Layout.endpoint_writes v
  | settings => exact Layout.settings_writes v
  | items => exact Layout.item_writes.list v

end BodyKind
end Wire
end ScriptedPeer
