import ScriptedPeer.Wire.Values

/-!
# Reading back what was written

A layout reads back a value when it takes exactly the bytes of the value off the front, whatever
follows them. Numbers have to fit their width, and a text has to have a length that fits eight bytes.
Beyond that every value of the call frames is read back, so a frame is settled by its texts alone.
-/

namespace ScriptedPeer

def Greeting.texts (g : Greeting) : List String := [g.nickname, g.identity, g.address]

def Item.texts (i : Item) : List String := [i.identity, i.message]

def ClientFrame.texts : ClientFrame → List String
  | heartbeat identity => [identity]
  | greet g => g.texts
  | tell i | chunk i => i.texts
  | finish => []

def Reply.texts : Reply → List String
  | heartbeat identity | tell identity | narrate identity => [identity]
  | greet g => g.texts

def ServerFrame.texts : ServerFrame → List String
  | reply r => r.texts
  | unimplemented _ => []

namespace Wire.Layout

variable {α β : Type}

/-- The value is read off the front of its own bytes, and what follows them is left. -/
def ReadsBack (l : Layout α) (a : α) : Prop := ∀ rest, l.read (l.write a ++ rest) = .ok (a, rest)

theorem number_readsBack (width n : Nat) (h : n < Nat.pow 256 width) :
    (number width).ReadsBack n := by
  intro rest
  have hs := split?_append (littleEndian width n) rest
  rw [length_littleEndian] at hs
  simp only [number, hs, ofLittleEndian_littleEndian width n h]

theorem readAs_of_read {l : Layout α} {bs rest : Bytes} {a : α} (f : α → β)
    (h : l.read bs = .ok (a, rest)) : l.readAs f bs = .ok (f a, rest) := by
  simp only [readAs, h]

/-- A value that is written as another is read back if that one is and leads back to it. -/
theorem via_readsBack {l : Layout α} {f : α → β} {g : β → α} {b : β} (hl : l.ReadsBack (g b))
    (hb : f (g b) = b) : (l.via f g).ReadsBack b := by
  intro rest
  have h := readAs_of_read f (hl rest)
  rw [hb] at h
  exact h

theorem pair_readsBack {l : Layout α} {m : Layout β} {a : α} {b : β} (hl : l.ReadsBack a)
    (hm : m.ReadsBack b) : (l.pair m).ReadsBack (a, b) := by
  intro rest
  have h : (l.pair m).write (a, b) ++ rest = l.write a ++ (m.write b ++ rest) :=
    List.append_assoc ..
  rw [h]
  simp only [pair, hl (m.write b ++ rest), readAs, hm rest]

theorem word32_readsBack (w : UInt32) : word32.ReadsBack w :=
  via_readsBack (number_readsBack 4 w.toNat w.toNat_lt) UInt32.ofNat_toNat

theorem word64_readsBack (w : UInt64) : word64.ReadsBack w := by
  apply via_readsBack
  · exact number_readsBack 8 w.toNat w.toNat_lt
  · exact UInt64.ofNat_toNat

theorem sequence_readsBack (s : SequenceNumber) : sequence.ReadsBack s :=
  via_readsBack (word64_readsBack s.value) rfl

theorem timestamp_readsBack (t : Timestamp) : timestamp.ReadsBack t :=
  via_readsBack (word64_readsBack t.millis) rfl

theorem toByteArray_utf8 (s : String) : (utf8 s).toByteArray = s.toByteArray := by
  apply ByteArray.ext
  rw [List.data_toByteArray]
  rfl

theorem fromUTF8?_utf8 (s : String) : String.fromUTF8? (utf8 s).toByteArray = some s := by
  rw [toByteArray_utf8, String.fromUTF8?, dif_pos s.isValidUTF8]
  rfl

/-- The length of a text fits its eight bytes. -/
def TextFits (s : String) : Prop := (utf8 s).length < Nat.pow 256 8

/-- A text is read back if its length fits eight bytes. -/
theorem text_readsBack (s : String) (h : TextFits s) : text.ReadsBack s := by
  intro rest
  have hn := number_readsBack 8 (utf8 s).length h (utf8 s ++ rest)
  have he : text.write s ++ rest = (number 8).write (utf8 s).length ++ (utf8 s ++ rest) :=
    List.append_assoc ..
  rw [he]
  simp only [text, hn, split?_append, fromUTF8?_utf8]

theorem greeting_readsBack (g : Greeting) (h : ∀ s ∈ g.texts, TextFits s) :
    greeting.ReadsBack g := by
  have hn := text_readsBack g.nickname (h _ (by simp [Greeting.texts]))
  have hi := text_readsBack g.identity (h _ (by simp [Greeting.texts]))
  have ha := text_readsBack g.address (h _ (by simp [Greeting.texts]))
  exact via_readsBack (pair_readsBack hn (pair_readsBack hi ha)) rfl

theorem item_readsBack (i : Item) (h : ∀ s ∈ i.texts, TextFits s) : item.ReadsBack i := by
  have hi := text_readsBack i.identity (h _ (by simp [Item.texts]))
  have hm := text_readsBack i.message (h _ (by simp [Item.texts]))
  have hs := pair_readsBack (sequence_readsBack i.sequence) (timestamp_readsBack i.timestamp)
  exact via_readsBack (pair_readsBack hi (pair_readsBack hm hs)) rfl

theorem endpoint_readsBack (e : Endpoint) (h : TextFits e.host) : endpoint.ReadsBack e := by
  have hp : word16.ReadsBack e.port :=
    via_readsBack (number_readsBack 2 e.port.toNat e.port.toNat_lt) UInt16.ofNat_toNat
  exact via_readsBack (pair_readsBack (text_readsBack e.host h) hp) rfl

theorem settings_readsBack (s : Settings) (hi : TextFits s.identity) (hn : TextFits s.nickname) :
    settings.ReadsBack s := by
  have hw := pair_readsBack (word32_readsBack s.replyLimit) (pair_readsBack
    (word64_readsBack s.requestInterval) (pair_readsBack (word32_readsBack s.requestBound)
      (pair_readsBack (word32_readsBack s.greetAttempts) (pair_readsBack
        (word32_readsBack s.tellEvery) (pair_readsBack (word32_readsBack s.narrateLength)
          (pair_readsBack (word64_readsBack s.callTimeout)
            (word64_readsBack s.drainTimeout)))))))
  exact via_readsBack (pair_readsBack (text_readsBack s.identity hi) (pair_readsBack
    (text_readsBack s.nickname hn) hw)) rfl

theorem readMany_readsBack {l : Layout α} (as before : List α) (h : ∀ a ∈ as, l.ReadsBack a)
    (rest : Bytes) : readMany l as.length before (as.flatMap l.write ++ rest) =
      .ok (before.reverse ++ as, rest) := by
  induction as generalizing before with
  | nil => simp [readMany]
  | cons a as ih =>
    have ha := h a (.head _) (as.flatMap l.write ++ rest)
    have hi := ih (a :: before) fun x hx => h x (.tail _ hx)
    simp only [List.length_cons, List.flatMap_cons, List.append_assoc, readMany, ha, hi,
      List.reverse_cons, List.singleton_append]

/-- A list is read back if all of it is and its length fits eight bytes. -/
theorem list_readsBack {l : Layout α} {as : List α} (hn : as.length < Nat.pow 256 8)
    (h : ∀ a ∈ as, l.ReadsBack a) : l.list.ReadsBack as := by
  intro rest
  have hc := number_readsBack 8 as.length hn (as.flatMap l.write ++ rest)
  have he : l.list.write as ++ rest =
      (number 8).write as.length ++ (as.flatMap l.write ++ rest) := List.append_assoc ..
  rw [he]
  simp only [list, hc, readMany_readsBack as [] h rest, List.reverse_nil, List.nil_append]

/-- A variant's number leads to the reader of its values. -/
theorem readTagged_tag {variant : Nat → Option (Bytes → Except BodyFault (α × Bytes))}
    {read : Bytes → Except BodyFault (α × Bytes)} (index : Nat) (hi : index < Nat.pow 256 4)
    (hv : variant index = some read) (count : Nat) (bs : Bytes) :
    readTagged count variant (tag index ++ bs) = read bs := by
  have hn : (number 4).read (tag index ++ bs) = .ok (index, bs) := number_readsBack 4 index hi bs
  simp only [readTagged, hn, hv]

/-- A variant with one value is read back when its value is. -/
theorem variant_readsBack {l : Layout β} {m : Layout α} {f : α → β} {count : Nat}
    {variant : Nat → Option (Bytes → Except BodyFault (β × Bytes))}
    (hl : l.read = readTagged count variant) (index : Nat) (hi : index < Nat.pow 256 4)
    (hv : variant index = some (m.readAs f)) {a : α} (hw : l.write (f a) = tag index ++ m.write a)
    (ha : m.ReadsBack a) : l.ReadsBack (f a) := by
  intro rest
  rw [hl, hw, List.append_assoc, readTagged_tag index hi hv]
  exact readAs_of_read f (ha rest)

/-- A variant without values is its number alone. -/
theorem bare_readsBack {l : Layout α} {count : Nat}
    {variant : Nat → Option (Bytes → Except BodyFault (α × Bytes))}
    (hl : l.read = readTagged count variant) (index : Nat) (hi : index < Nat.pow 256 4) {a : α}
    (hv : variant index = some fun bs => .ok (a, bs)) (hw : l.write a = tag index) :
    l.ReadsBack a := by
  intro rest
  rw [hl, hw, readTagged_tag index hi hv]

theorem method_readsBack (m : Method) : method.ReadsBack m := by
  cases m with
  | heartbeat => exact bare_readsBack rfl 0 (by decide) rfl rfl
  | greet => exact bare_readsBack rfl 1 (by decide) rfl rfl
  | tell => exact bare_readsBack rfl 2 (by decide) rfl rfl
  | narrate => exact bare_readsBack rfl 3 (by decide) rfl rfl

theorem reply_readsBack (r : Reply) (h : ∀ s ∈ r.texts, TextFits s) : reply.ReadsBack r := by
  cases r with
  | heartbeat identity =>
    exact variant_readsBack rfl 0 (by decide) rfl rfl (text_readsBack identity (h _ (.head _)))
  | greet g => exact variant_readsBack rfl 1 (by decide) rfl rfl (greeting_readsBack g h)
  | tell identity =>
    exact variant_readsBack rfl 2 (by decide) rfl rfl (text_readsBack identity (h _ (.head _)))
  | narrate identity =>
    exact variant_readsBack rfl 3 (by decide) rfl rfl (text_readsBack identity (h _ (.head _)))

/-- A frame of a caller is read back if its texts are. -/
theorem clientFrame_readsBack (f : ClientFrame) (h : ∀ s ∈ f.texts, TextFits s) :
    clientFrame.ReadsBack f := by
  cases f with
  | heartbeat identity =>
    exact variant_readsBack rfl 0 (by decide) rfl rfl (text_readsBack identity (h _ (.head _)))
  | greet g => exact variant_readsBack rfl 1 (by decide) rfl rfl (greeting_readsBack g h)
  | tell i => exact variant_readsBack rfl 2 (by decide) rfl rfl (item_readsBack i h)
  | chunk i => exact variant_readsBack rfl 3 (by decide) rfl rfl (item_readsBack i h)
  | finish => exact bare_readsBack rfl 4 (by decide) rfl rfl

/-- A frame of a server is read back if its texts are. -/
theorem serverFrame_readsBack (f : ServerFrame) (h : ∀ s ∈ f.texts, TextFits s) :
    serverFrame.ReadsBack f := by
  cases f with
  | reply r => exact variant_readsBack rfl 0 (by decide) rfl rfl (reply_readsBack r h)
  | unimplemented m => exact variant_readsBack rfl 1 (by decide) rfl rfl (method_readsBack m)

/-- No text of a frame is longer than the frame. -/
theorem length_utf8_le_clientFrame {f : ClientFrame} {s : String} (h : s ∈ f.texts) :
    (utf8 s).length ≤ (clientFrame.write f).length := by
  cases f with
  | heartbeat identity =>
    simp only [ClientFrame.texts, List.mem_singleton] at h
    subst h
    simp only [clientFrame, text, List.length_append]
    omega
  | greet g =>
    simp only [ClientFrame.texts, Greeting.texts, List.mem_cons, List.not_mem_nil, or_false] at h
    simp only [clientFrame, greeting, via, pair, text, List.length_append]
    rcases h with rfl | rfl | rfl <;> omega
  | tell i | chunk i =>
    simp only [ClientFrame.texts, Item.texts, List.mem_cons, List.not_mem_nil, or_false] at h
    simp only [clientFrame, item, via, pair, text, List.length_append]
    rcases h with rfl | rfl <;> omega
  | finish => cases h

theorem length_utf8_le_serverFrame {f : ServerFrame} {s : String} (h : s ∈ f.texts) :
    (utf8 s).length ≤ (serverFrame.write f).length := by
  cases f with
  | unimplemented m => cases h
  | reply r => cases r with
    | greet g =>
      simp only [ServerFrame.texts, Reply.texts, Greeting.texts, List.mem_cons, List.not_mem_nil,
        or_false] at h
      simp only [serverFrame, reply, greeting, via, pair, text, List.length_append]
      rcases h with rfl | rfl | rfl <;> omega
    | heartbeat identity | tell identity | narrate identity =>
      simp only [ServerFrame.texts, Reply.texts, List.mem_singleton] at h
      subst h
      simp only [serverFrame, reply, text, List.length_append]
      omega

end Wire.Layout
end ScriptedPeer
