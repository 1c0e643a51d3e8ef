import ScriptedPeer.Proofs.Wire.Body
import ScriptedPeer.Proofs.Wire.Streaming

/-!
# What is written and what is read

The limit on bodies is looked at twice, on the body when a frame is written and on the length in the
header when one is read, and a body may be longer than its value needs. Still the frames that can be
written are those that can be read: a value needs no more than the body it is read off, and what it
needs is a body of its own.
-/

namespace ScriptedPeer.Wire

namespace Frame

variable {α : Type} {l : Layout α}

/-- Four bytes are the header of the length that they give. -/
theorem eq_header {head : Bytes} (h4 : head.length = headerSize) :
    head = header (ofLittleEndian head.reverse) := by
  have hr : head.reverse.length = headerSize := by rw [List.length_reverse, h4]
  rw [header, ← hr, littleEndian_ofLittleEndian, List.reverse_reverse]

/-- A header is the one of the length that it gives, and no such length is beyond the limit. -/
theorem eq_header_of_bodyLength {head : Bytes} {n : Nat} (h4 : head.length = headerSize)
    (h : bodyLength head = .ok n) : head = header n ∧ n ≤ maxBody := by
  simp only [bodyLength] at h
  split at h
  · next hle =>
    obtain rfl := Except.ok.inj h
    exact ⟨eq_header h4, hle⟩
  · cases h

/-- Bytes that a frame is decoded from are its header, its body, from which the value is read, and
what follows. -/
theorem exists_body_of_decode {bs : Bytes} {a : α} {used : Nat}
    (h : decode l bs = .ok (a, used)) :
    ∃ body rest, bs = header body.length ++ body ++ rest ∧ body.length ≤ maxBody ∧
      used = headerSize + body.length ∧ decodeBody l body = .ok a := by
  by_cases hshort : bs.length < headerSize
  · rw [decode_of_short hshort] at h
    cases h
  obtain ⟨head, behind, rfl, h4⟩ := exists_header (Nat.le_of_not_lt hshort)
  cases hn : bodyLength head with
  | error fault => simp only [decode_append h4, hn, reduceCtorEq] at h
  | ok n =>
    obtain ⟨rfl, hle⟩ := eq_header_of_bodyLength h4 hn
    rw [decode_header_append hle] at h
    cases hs : split? n behind with
    | none => simp only [hs, reduceCtorEq] at h
    | some parts =>
      obtain ⟨body, rest⟩ := parts
      obtain ⟨rfl, rfl⟩ := split?_eq_some hs
      cases hb : decodeBody l body with
      | error fault => simp only [hs, hb, Except.map, reduceCtorEq] at h
      | ok b =>
        simp only [hs, hb, Except.map, Except.ok.injEq, Prod.mk.injEq] at h
        obtain ⟨rfl, rfl⟩ := h
        exact ⟨body, rest, (List.append_assoc ..).symm, hle, rfl, hb⟩

theorem decode_of_body {body : Bytes} {a : α} (hn : body.length ≤ maxBody)
    (h : decodeBody l body = .ok a) (rest : Bytes) :
    decode l (header body.length ++ body ++ rest) = .ok (a, headerSize + body.length) := by
  rw [List.append_assoc, decode_header_append hn, split?_append]
  simp only [h, Except.map]

theorem encode_eq_ok_iff {a : α} : (∃ frame, encode l a = .ok frame) ↔ Fits l a := by
  constructor
  · rintro ⟨frame, h⟩
    exact (encode_eq_ok h).1
  · intro h
    exact ⟨bytes l a, encode_of_fits h⟩

end Frame

namespace BodyKind

open Wire.Frame

/-- A value that is read off a body needs no more than the body. -/
theorem write_prefix_of_decodeBody {k : BodyKind} {body : Bytes} {f : k.Value}
    (h : decodeBody k.layout body = .ok f) : k.layout.write f <+: body :=
  (prefix_of_decodeBody k.readsOnly h).2

theorem fits_of_decode {k : BodyKind} {bs : Bytes} {f : k.Value} {used : Nat}
    (h : decode k.layout bs = .ok (f, used)) : Fits k.layout f := by
  obtain ⟨body, rest, -, hle, -, hb⟩ := exists_body_of_decode h
  exact Nat.le_trans (write_prefix_of_decodeBody hb).length_le hle

/-- The frames that some bytes are decoded as are those that are encoded, which are those whose body
is no longer than a body may be. Bytes that are decoded as a frame are as many as the frame takes,
or more; its own encoding takes no more than that, and just as much only where the bytes begin with
it. What comes after the bytes that were used does not matter. -/
theorem decoded_iff_encoded (k : BodyKind) (hk : k = .clientFrame ∨ k = .serverFrame) :
    (∀ f : k.Value,
      ((∃ bs used, decode k.layout bs = .ok (f, used)) ↔
        ∃ frame, encode k.layout f = .ok frame) ∧
      ((∃ frame, encode k.layout f = .ok frame) ↔ (k.spelling f).length ≤ maxBody)) ∧
    ∀ (bs : Bytes) (f : k.Value) (used : Nat), decode k.layout bs = .ok (f, used) →
      headerSize ≤ used ∧ used ≤ bs.length ∧
      (∃ frame, encode k.layout f = .ok frame ∧ frame.length ≤ used ∧
        -- The bodies are what stands behind the headers.
        frame.drop headerSize = k.spelling f ∧
        frame.drop headerSize <+: (bs.take used).drop headerSize ∧
        (used = frame.length ↔ bs.take used = frame)) ∧
      ∀ bs', bs.take used <+: bs' → decode k.layout bs' = .ok (f, used) := by
  refine ⟨fun f => ⟨⟨?_, ?_⟩, ?_⟩, fun bs f used h => ?_⟩
  · rintro ⟨bs, used, h⟩
    exact encode_eq_ok_iff.mpr (fits_of_decode h)
  · rintro ⟨frame, h⟩
    obtain ⟨hf, rfl⟩ := encode_eq_ok h
    have hd := decode_bytes_append hf (readsBack_of_encode hk hf) []
    rw [List.append_nil] at hd
    exact ⟨_, _, hd⟩
  · rw [encode_eq_ok_iff, Fits, k.write_eq_spelling]
  · obtain ⟨body, rest, rfl, hle, rfl, hb⟩ := exists_body_of_decode h
    have hp := write_prefix_of_decodeBody hb
    have hfront : (header body.length ++ body).length = headerSize + body.length := by
      rw [List.length_append, length_header]
    have htake : (header body.length ++ body ++ rest).take (headerSize + body.length) =
        header body.length ++ body := by
      rw [← hfront, List.take_left]
    have hdrop (bs : Bytes) (n : Nat) : (header n ++ bs).drop headerSize = bs := by
      rw [← length_header n, List.drop_left]
    rw [htake]
    refine ⟨Nat.le_add_right .., ?_, ⟨bytes k.layout f, encode_of_fits (fits_of_decode h), ?_, ?_,
      ?_, ?_, ?_⟩, ?_⟩
    · rw [List.length_append, hfront]
      exact Nat.le_add_right ..
    · rw [length_bytes]
      exact Nat.add_le_add_left hp.length_le _
    · rw [bytes, hdrop, k.write_eq_spelling]
    · rw [bytes, hdrop, hdrop]
      exact hp
    · -- A body that is as long as its value needs is what the value needs.
      intro hlength
      rw [length_bytes] at hlength
      rw [bytes, hp.eq_of_length (Nat.add_left_cancel hlength).symm]
    · intro hbytes
      rw [← hbytes, hfront]
    · rintro bs' ⟨more, rfl⟩
      exact decode_of_body hle hb more

/-- A closing frame whose body has two bytes more than it needs, and the beginning of another. -/
def paddedClosing : Bytes := [0, 0, 0, 6, 4, 0, 0, 0, 9, 9] ++ [0, 0]

theorem decoded_paddedClosing :
    decode clientFrame.layout paddedClosing = .ok (closing, 10) ∧
    (∃ frame, encode clientFrame.layout closing = .ok frame ∧ frame.length ≤ 10 ∧
      frame ≠ paddedClosing.take 10) ∧
    ∀ more, decode clientFrame.layout (paddedClosing.take 10 ++ more) = .ok (closing, 10) := by
  have h : decode clientFrame.layout paddedClosing = .ok (closing, 10) := rfl
  obtain ⟨-, hdecoded⟩ := decoded_iff_encoded clientFrame (.inl rfl)
  obtain ⟨-, -, ⟨frame, hframe, hle, -, -, hsame⟩, hmore⟩ := hdecoded paddedClosing closing 10 h
  refine ⟨h, ⟨frame, hframe, hle, fun he => ?_⟩, fun more => hmore _ (List.prefix_append ..)⟩
  have hlength : frame.length = 8 := by
    rw [(encode_eq_ok hframe).2, length_bytes]
    rfl
  rw [← hsame.mpr he.symm] at hlength
  cases hlength

end BodyKind
end ScriptedPeer.Wire
