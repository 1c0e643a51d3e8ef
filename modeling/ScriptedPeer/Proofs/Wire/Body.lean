import ScriptedPeer.Proofs.Wire.ReadOnly
import ScriptedPeer.Proofs.Wire.Spelling
import ScriptedPeer.Wire.Frame

/-!
# A body spells one value

A body is read as a value exactly if it begins with the bytes of the value, whichever type it is read
as. So what was written is read back whatever follows it, nothing is read that the body does not
spell, and a body that ends within a value is no value at all.
-/

namespace ScriptedPeer.Wire

namespace Frame

variable {α : Type} {l : Layout α} {P : α → Prop}

theorem decodeBody_eq_ok {body : Bytes} {a : α} :
    decodeBody l body = .ok a ↔ ∃ rest, l.read body = .ok (a, rest) := by
  cases h : l.read body with
  | ok p => simp [decodeBody, h, Prod.ext_iff]
  | error why => simp [decodeBody, h]

theorem decodeBody_of_prefix {a : α} (ha : l.ReadsBack a) {body : Bytes} (h : l.write a <+: body) :
    decodeBody l body = .ok a := by
  obtain ⟨rest, rfl⟩ := h
  exact decodeBody_eq_ok.mpr ⟨rest, ha rest⟩

theorem prefix_of_decodeBody (hl : l.ReadsOnly P) {a : α} {body : Bytes}
    (h : decodeBody l body = .ok a) : P a ∧ l.write a <+: body := by
  obtain ⟨rest, hr⟩ := decodeBody_eq_ok.mp h
  obtain ⟨hp, rfl⟩ := hl body a rest hr
  exact ⟨hp, List.prefix_append ..⟩

/-- A body that ends within a value is refused. A value read off it would be read off the whole
bytes as well, and of those the first one is read back. -/
theorem decodeBody_of_cut (hl : l.ReadsOnly P) (hb : ∀ a, P a → l.ReadsBack a) {a : α} (ha : P a)
    {body : Bytes} (h : body <+: l.write a) (hne : body ≠ l.write a) :
    ∃ why, decodeBody l body = .error (.body why) := by
  cases hr : l.read body with
  | error why => exact ⟨why, by simp only [decodeBody, hr]⟩
  | ok p =>
    obtain ⟨other, rest⟩ := p
    obtain ⟨ho, rfl⟩ := hl body other rest hr
    obtain ⟨missing, hm⟩ := h
    have hread := hb a ha []
    rw [List.append_nil, ← hm, List.append_assoc, hb other ho] at hread
    obtain ⟨rfl, hnil⟩ := Prod.mk.inj (Except.ok.inj hread)
    rw [(List.append_eq_nil_iff.mp hnil).1, List.append_nil] at hne
    exact absurd rfl hne

end Frame

namespace BodyKind

open Layout (TextFits)

/-- The lengths of all texts, and that of a list, fit eight bytes. -/
def LengthsFit : (k : BodyKind) → k.Value → Prop
  | clientFrame, (f : ClientFrame) => ∀ s ∈ f.texts, TextFits s
  | serverFrame, (f : ServerFrame) => ∀ s ∈ f.texts, TextFits s
  | reply, (r : Reply) => ∀ s ∈ r.texts, TextFits s
  | method, (_ : Method) => True
  | endpoint, (e : Endpoint) => TextFits e.host
  | settings, (s : Settings) => TextFits s.identity ∧ TextFits s.nickname
  | items, (is : List Item) => is.length < Nat.pow 256 8 ∧ ∀ i ∈ is, ∀ s ∈ i.texts, TextFits s

theorem readsBack (k : BodyKind) (v : k.Value) (hv : k.LengthsFit v) : k.layout.ReadsBack v := by
  cases k with
  | clientFrame => exact Layout.clientFrame_readsBack v hv
  | serverFrame => exact Layout.serverFrame_readsBack v hv
  | reply => exact Layout.reply_readsBack v hv
  | method => exact Layout.method_readsBack v
  | endpoint => exact Layout.endpoint_readsBack v hv
  | settings => exact Layout.settings_readsBack v hv.1 hv.2
  | items => exact Layout.list_readsBack hv.1 fun i hi => Layout.item_readsBack i (hv.2 i hi)

theorem readsOnly (k : BodyKind) : k.layout.ReadsOnly k.LengthsFit := by
  cases k with
  | clientFrame => exact Layout.clientFrame_readsOnly
  | serverFrame => exact Layout.serverFrame_readsOnly
  | reply => exact Layout.reply_readsOnly
  | method => exact Layout.method_readsOnly
  | endpoint => exact Layout.endpoint_readsOnly
  | settings => exact Layout.settings_readsOnly
  | items => exact Layout.item_readsOnly.list

/-- A body is read as a value exactly if it begins with what spells the value. -/
theorem decodeBody_iff_prefix (k : BodyKind) (v : k.Value) (hv : k.LengthsFit v) (body : Bytes) :
    (Frame.decodeBody k.layout body = .ok v ↔ k.spelling v <+: body) ∧
    -- What was written is read back, whatever follows it.
    k.layout.write v = k.spelling v ∧
    (∀ more, Frame.decodeBody k.layout (k.spelling v ++ more) = .ok v) ∧
    -- Nothing is read but what the body spells.
    (∀ w, Frame.decodeBody k.layout body = .ok w → k.LengthsFit w ∧ k.spelling w <+: body) ∧
    -- A body that ends within the value is no value of the type.
    (body <+: k.spelling v → body ≠ k.spelling v →
      ∃ why, Frame.decodeBody k.layout body = .error (.body why)) := by
  have hback := k.readsBack v hv
  have hspelled : ∀ w, Frame.decodeBody k.layout body = .ok w →
      k.LengthsFit w ∧ k.spelling w <+: body := by
    intro w hw
    rw [← k.write_eq_spelling w]
    exact Frame.prefix_of_decodeBody k.readsOnly hw
  rw [← k.write_eq_spelling v]
  refine ⟨⟨?_, ?_⟩, rfl, ?_, hspelled, ?_⟩
  · intro h
    exact (Frame.prefix_of_decodeBody k.readsOnly h).2
  · intro h
    exact Frame.decodeBody_of_prefix hback h
  · intro more
    exact Frame.decodeBody_of_prefix hback (List.prefix_append ..)
  · intro h hne
    exact Frame.decodeBody_of_cut k.readsOnly k.readsBack hv h hne

def accentedReply : serverFrame.Value := ServerFrame.reply (.heartbeat "é")

/-- A reply with a text of two bytes, behind which a byte is left over; and without its last byte. -/
theorem decodeBody_accentedReply : serverFrame.LengthsFit accentedReply ∧
    Frame.decodeBody serverFrame.layout
      [0, 0, 0, 0, 0, 0, 0, 0, 2, 0, 0, 0, 0, 0, 0, 0, 195, 169, 7] = .ok accentedReply ∧
    ∃ why, Frame.decodeBody serverFrame.layout
      [0, 0, 0, 0, 0, 0, 0, 0, 2, 0, 0, 0, 0, 0, 0, 0, 195] = .error (.body why) := by
  have hv : serverFrame.LengthsFit accentedReply := by
    intro s hs
    obtain rfl := List.mem_singleton.mp hs
    change (Layout.utf8 "é").length < Nat.pow 256 8
    decide +kernel
  have hs : serverFrame.spelling accentedReply =
      [0, 0, 0, 0, 0, 0, 0, 0, 2, 0, 0, 0, 0, 0, 0, 0, 195, 169] := by decide +kernel
  obtain ⟨hread, -⟩ := decodeBody_iff_prefix serverFrame accentedReply hv
    [0, 0, 0, 0, 0, 0, 0, 0, 2, 0, 0, 0, 0, 0, 0, 0, 195, 169, 7]
  obtain ⟨-, -, -, -, hcut⟩ := decodeBody_iff_prefix serverFrame accentedReply hv
    [0, 0, 0, 0, 0, 0, 0, 0, 2, 0, 0, 0, 0, 0, 0, 0, 195]
  rw [hs] at hread hcut
  exact ⟨hv, hread.mpr (by decide), hcut (by decide) (by decide)⟩

end BodyKind
end ScriptedPeer.Wire
