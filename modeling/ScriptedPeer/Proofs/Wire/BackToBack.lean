import ScriptedPeer.Proofs.Wire.Delivery
import ScriptedPeer.Proofs.Wire.Spelling

/-!
# Frames back to back

Frames that stand one after the other are decoded one after the other, and where the bytes are cut,
all frames before the cut are decoded and the one it goes through is reported with its own size. What
follows the frames is decoded as if it stood alone.
-/

namespace ScriptedPeer.Wire

namespace Frame

variable {α : Type} {l : Layout α}

/-- Decodes frame after frame as long as bytes are left. -/
def decodeStream (l : Layout α) (bs : Bytes) : List (α × Nat) × Option Fault :=
  if bs = [] then ([], none) else decodeAll l bs

theorem split?_of_short {n : Nat} {bs : Bytes} (h : bs.length < n) : split? n bs = none := by
  rw [split?, if_neg]
  rw [List.length_take]
  omega

theorem decode_of_short {bs : Bytes} (h : bs.length < headerSize) :
    decode l bs = .error (.truncated headerSize bs.length) := by
  simp only [decode, split?_of_short h]

/-- Behind its header, a frame is decoded from as many bytes as the header says. -/
theorem decode_append {head : Bytes} (h : head.length = headerSize) (bs : Bytes) :
    decode l (head ++ bs) = match bodyLength head with
      | .error fault => .error fault
      | .ok n => match split? n bs with
        | none => .error (.truncated (headerSize + n) (headerSize + bs.length))
        | some (body, _) => (decodeBody l body).map (·, headerSize + n) := by
  have hs := split?_append head bs
  rw [h] at hs
  have hl : (head ++ bs).length = headerSize + bs.length := by rw [List.length_append, h]
  simp only [decode, hs, hl, bind, Except.bind]
  cases bodyLength head with
  | error fault => rfl
  | ok n =>
    cases hn : split? n bs with
    | none => simp only [hn]
    | some p =>
      cases hb : decodeBody l p.1 with
      | error fault => simp only [Except.map, hn, hb]
      | ok a =>
        simp only [Except.map, hn, hb]
        rfl

theorem decode_header_append {n : Nat} (hn : n ≤ maxBody) (bs : Bytes) :
    decode l (header n ++ bs) = match split? n bs with
      | none => .error (.truncated (headerSize + n) (headerSize + bs.length))
      | some (body, _) => (decodeBody l body).map (·, headerSize + n) := by
  rw [decode_append (length_header n), bodyLength_header hn]

/-- A frame at the front of the bytes is decoded, and takes all its bytes. -/
theorem decode_bytes_append {a : α} (hf : Fits l a) (ha : l.ReadsBack a) (more : Bytes) :
    decode l (bytes l a ++ more) = .ok (a, (bytes l a).length) := by
  rw [bytes, List.append_assoc, decode_header_append hf, split?_append]
  simp only [decodeBody_write ha, Except.map, length_header, List.length_append]

/-- Of a frame that is cut short the header is asked for, or once it is there the whole frame. -/
theorem decode_of_cut {a : α} (hf : Fits l a) {front missing : Bytes} (hm : missing ≠ [])
    (h : front ++ missing = bytes l a) :
    decode l front = .error (.truncated
      (if front.length < headerSize then headerSize else (bytes l a).length) front.length) := by
  split
  · next h4 => exact decode_of_short h4
  · next h4 =>
    obtain ⟨body, rfl, hlt⟩ := exists_torn_body hm h (Nat.le_of_not_lt h4)
    rw [decode_header_append hf, split?_of_short hlt, length_bytes, List.length_append,
      length_header]

/-- A frame takes its header at least. -/
theorem headerSize_le_of_decode {bs : Bytes} {a : α} {used : Nat}
    (h : decode l bs = .ok (a, used)) : headerSize ≤ used := by
  simp only [decode, bind, Except.bind] at h
  split at h
  · split at h
    · cases h
    · split at h
      · split at h
        · cases h
        · cases h
          exact Nat.le_add_right ..
      · cases h
  · cases h

/-- Bytes that a frame leaves over are fewer than the bytes it was decoded from. -/
theorem length_left_lt {bs : Bytes} {a : α} {used : Nat} (h : decode l bs = .ok (a, used))
    (hr : bs.drop used ≠ []) : (bs.drop used).length < bs.length := by
  have hu := headerSize_le_of_decode h
  have h4 : 0 < headerSize := by decide
  have hpos := List.length_pos_iff.mpr hr
  rw [List.length_drop] at hpos ⊢
  omega

/-- More attempts than there are bytes are never made, so it does not matter how many are allowed. -/
theorem decodeUpTo_eq_of_lt {m n : Nat} {bs : Bytes} (hm : bs.length < m) (hn : bs.length < n) :
    decodeUpTo l m bs = decodeUpTo l n bs := by
  induction m generalizing n bs with
  | zero => omega
  | succ m ih =>
    cases n with
    | zero => omega
    | succ n =>
      cases h : decode l bs with
      | error fault => simp only [decodeUpTo, h]
      | ok p =>
        obtain ⟨a, used⟩ := p
        by_cases hr : bs.drop used = []
        · simp only [decodeUpTo, h, hr, List.isEmpty_nil, if_true]
        · have hlt := length_left_lt h hr
          have hi : decodeUpTo l m (bs.drop used) = decodeUpTo l n (bs.drop used) :=
            ih (by omega) (by omega)
          simp only [decodeUpTo, h, hi]

@[simp] theorem decodeStream_nil : decodeStream l [] = ([], none) := rfl

theorem decodeStream_of_error {bs : Bytes} {fault : Fault} (hb : bs ≠ [])
    (h : decode l bs = .error fault) : decodeStream l bs = ([], some fault) := by
  simp only [decodeStream, if_neg hb, decodeAll, decodeUpTo, h]

theorem decodeStream_of_ok {bs : Bytes} {a : α} {used : Nat} (h : decode l bs = .ok (a, used)) :
    decodeStream l bs = ((a, used) :: (decodeStream l (bs.drop used)).1,
      (decodeStream l (bs.drop used)).2) := by
  have hb : bs ≠ [] := by
    rintro rfl
    cases h
  by_cases hr : bs.drop used = []
  · simp only [decodeStream, if_neg hb, decodeAll, decodeUpTo, h, hr, List.isEmpty_nil, if_true]
  · have he := decodeUpTo_eq_of_lt (l := l) (length_left_lt h hr) (Nat.lt_succ_self _)
    have hne : (bs.drop used).isEmpty = false := by simp [hr]
    simp only [decodeStream, if_neg hb, if_neg hr, decodeAll, decodeUpTo, h, hne, he,
      Bool.false_eq_true, if_false]

/-- Frames are decoded in order, and then what follows them. -/
theorem decodeStream_append {fs : List α} (hf : ∀ f ∈ fs, Fits l f)
    (hl : ∀ f ∈ fs, l.ReadsBack f) (more : Bytes) :
    decodeStream l (fs.flatMap (bytes l) ++ more) =
      (fs.map (fun f => (f, (bytes l f).length)) ++ (decodeStream l more).1,
        (decodeStream l more).2) := by
  induction fs with
  | nil => rfl
  | cons f fs ih =>
    have hd := decode_bytes_append (hf f (.head _)) (hl f (.head _)) (fs.flatMap (bytes l) ++ more)
    have hi := ih (fun g hg => hf g (.tail _ hg)) fun g hg => hl g (.tail _ hg)
    rw [List.flatMap_cons, List.append_assoc, decodeStream_of_ok hd, List.drop_left, hi]
    rfl

/-- Which frames of a stream stand before a cut: those that end there or before. -/
theorem lt_length_iff_ends {done left : List α} {torn : Bytes}
    (ht : ∀ f ∈ left.head?, torn.length < (bytes l f).length) {i : Nat}
    (hi : i < (done ++ left).length) :
    i < done.length ↔ (((done ++ left).take (i + 1)).flatMap (bytes l)).length ≤
      (done.flatMap (bytes l) ++ torn).length := by
  constructor
  · intro hd
    have htake : (done ++ left).take (i + 1) = done.take (i + 1) :=
      List.take_append_of_le_length hd
    have hsplit : done.flatMap (bytes l) =
        (done.take (i + 1)).flatMap (bytes l) ++ (done.drop (i + 1)).flatMap (bytes l) := by
      rw [← List.flatMap_append, List.take_append_drop]
    rw [htake, hsplit]
    simp only [List.length_append]
    omega
  · intro hle
    by_cases hd : i < done.length
    · exact hd
    cases left with
    | nil =>
      rw [List.append_nil] at hi
      exact hi
    | cons f more =>
      have htf := ht f rfl
      have he : (done ++ f :: more).take (i + 1) = done ++ f :: more.take (i - done.length) := by
        rw [List.take_append, List.take_of_length_le (by omega),
          show i + 1 - done.length = i - done.length + 1 by omega, List.take_succ_cons]
      rw [he, List.flatMap_append, List.flatMap_cons] at hle
      simp only [List.length_append] at hle
      omega

end Frame

namespace BodyKind

theorem readsBack_of_encode {k : BodyKind} (hk : k = .clientFrame ∨ k = .serverFrame) {f : k.Value}
    (h : Frame.Fits k.layout f) : k.layout.ReadsBack f := by
  rcases hk with rfl | rfl
  · exact clientFrame_readsBack_of_fits h
  · exact serverFrame_readsBack_of_fits h

open Wire.Frame

/-- The first bytes of a stream of frames are decoded as the frames that end within them. -/
theorem decodeStream_of_front (k : BodyKind) (hk : k = .clientFrame ∨ k = .serverFrame)
    (fs : List k.Value) (hf : ∀ f ∈ fs, encode k.layout f = .ok (bytes k.layout f))
    (front : Bytes) (hfront : front <+: fs.flatMap (bytes k.layout)) :
    (∃ n ≤ fs.length, ∃ left,
      -- The first `n` frames are those that end within the bytes.
      (∀ i < fs.length,
        i < n ↔ ((fs.take (i + 1)).flatMap (bytes k.layout)).length ≤ front.length) ∧
      front = (fs.take n).flatMap (bytes k.layout) ++ left ∧
      (decodeStream k.layout front).1 =
        (fs.take n).map (fun f => (f, (bytes k.layout f).length)) ∧
      (left = [] → (decodeStream k.layout front).2 = none) ∧
      (left ≠ [] → ∃ f, fs[n]? = some f ∧ (decodeStream k.layout front).2 = some (.truncated
        (if left.length < headerSize then headerSize else (bytes k.layout f).length)
        left.length))) ∧
    ∀ more, decodeStream k.layout (fs.flatMap (bytes k.layout) ++ more) =
      (fs.map (fun f => (f, (bytes k.layout f).length)) ++ (decodeStream k.layout more).1,
        (decodeStream k.layout more).2) := by
  have hfits : ∀ f ∈ fs, Fits k.layout f := fun f hm => (encode_eq_ok (hf f hm)).1
  have hback : ∀ f ∈ fs, k.layout.ReadsBack f := fun f hm => readsBack_of_encode hk (hfits f hm)
  refine ⟨?_, decodeStream_append hfits hback⟩
  obtain ⟨behind, hb⟩ := hfront
  obtain ⟨done, left, torn, rfl, rfl, hcut⟩ := exists_cut hb
  have hlt : ∀ f ∈ left.head?, torn.length < (bytes k.layout f).length := by
    rcases hcut with ⟨rfl, -⟩ | ⟨f, more, missing, rfl, hm, ht⟩
    · simp
    · intro g hg
      obtain rfl : f = g := by simpa using hg
      have := List.length_pos_iff.mpr hm
      rw [← ht, List.length_append]
      omega
  have hd := decodeStream_append (l := k.layout) (fun f hm => hfits f (List.mem_append_left _ hm))
    (fun f hm => hback f (List.mem_append_left _ hm)) torn
  have htake : (done ++ left).take done.length = done := List.take_left
  refine ⟨done.length, by simp, torn, fun i hi => lt_length_iff_ends hlt hi, by rw [htake], ?_⟩
  rw [hd, htake]
  rcases hcut with ⟨-, rfl⟩ | ⟨f, more, missing, rfl, hm, ht⟩
  · simp
  · by_cases h0 : torn = []
    · simp [h0]
    · have hf' := hfits f (List.mem_append_right _ (.head _))
      have he := decodeStream_of_error h0 (decode_of_cut hf' hm ht)
      rw [he]
      refine ⟨List.append_nil _, fun hn => absurd hn h0, fun _ => ⟨f, ?_, rfl⟩⟩
      simp

def loneHeartbeat : clientFrame.Value := ClientFrame.heartbeat "a"

def closing : clientFrame.Value := ClientFrame.finish

/-- All bytes of a Heartbeat and six of the eight of a closing frame. -/
def cutFrames : Bytes :=
  [0, 0, 0, 13, 0, 0, 0, 0, 1, 0, 0, 0, 0, 0, 0, 0, 97] ++ [0, 0, 0, 4, 4, 0]

/-- Of two frames, the second of which is cut short, the first is decoded. -/
theorem decodeStream_cutFrames :
    (∀ f ∈ [loneHeartbeat, closing],
      encode clientFrame.layout f = .ok (bytes clientFrame.layout f)) ∧
    cutFrames <+: [loneHeartbeat, closing].flatMap (bytes clientFrame.layout) ∧
    decodeStream clientFrame.layout cutFrames =
      ([(loneHeartbeat, 17)], some (.truncated 8 6)) := by
  have hfirst : bytes clientFrame.layout loneHeartbeat =
      [0, 0, 0, 13, 0, 0, 0, 0, 1, 0, 0, 0, 0, 0, 0, 0, 97] := by decide +kernel
  have hlast : bytes clientFrame.layout closing = [0, 0, 0, 4, 4, 0, 0, 0] := by decide +kernel
  have hf : ∀ f ∈ [loneHeartbeat, closing],
      encode clientFrame.layout f = .ok (bytes clientFrame.layout f) := by
    intro f hm
    simp only [List.mem_cons, List.not_mem_nil, or_false] at hm
    rcases hm with rfl | rfl
    · exact encode_of_fits (by rw [Fits]; decide +kernel)
    · exact encode_of_fits (by rw [Fits]; decide +kernel)
  have hp : cutFrames <+: [loneHeartbeat, closing].flatMap (bytes clientFrame.layout) :=
    ⟨[0, 0], by simp [cutFrames, hfirst, hlast]⟩
  obtain ⟨⟨n, -, left, hends, hfront, hframes, -, hcut⟩, -⟩ :=
    decodeStream_of_front clientFrame (.inl rfl) [loneHeartbeat, closing] hf cutFrames hp
  -- The first frame ends within the bytes and the second does not.
  have h0 : 0 < n := (hends 0 (by decide)).mpr (by simp [cutFrames, hfirst])
  have h1 : ¬1 < n := by
    intro h
    have hle := (hends 1 (by decide)).mp h
    simp [cutFrames, hfirst, hlast] at hle
  obtain rfl : n = 1 := by omega
  obtain rfl : left = [0, 0, 0, 4, 4, 0] := by simpa [cutFrames, hfirst] using hfront.symm
  obtain ⟨f, hn, hfault⟩ := hcut (by decide)
  obtain rfl : closing = f := by simpa using hn
  refine ⟨hf, hp, Prod.ext ?_ ?_⟩
  · simpa [hfirst] using hframes
  · simpa [hlast, headerSize] using hfault

end BodyKind
end ScriptedPeer.Wire
