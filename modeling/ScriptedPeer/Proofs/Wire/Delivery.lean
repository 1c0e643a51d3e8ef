import ScriptedPeer.Proofs.Wire.ReadBack
import ScriptedPeer.Wire.Stream

/-!
# Frames as they arrive

However the bytes of a stream are divided into pieces, reading depends on the bytes alone. A frame
that has arrived in full is read, and what follows it is left. Of a frame that is cut short nothing
is read, not even an error: before its first byte the stream is at its end, and after that a part of
a frame is there.
-/

namespace ScriptedPeer.Wire

namespace Pieces

/-- Taking bytes off the pieces is taking them off all the bytes together. -/
theorem take?_flatten (n : Nat) (ps : Pieces) :
    (ps.take? n).map (fun p => (p.1, p.2.flatten)) = split? n ps.flatten := by
  induction ps generalizing n with
  | nil =>
    by_cases hn : n = 0
    · simp [take?, split?, hn]
    · simp [take?, split?, hn, Ne.symm hn]
  | cons piece rest ih =>
    by_cases hn : n ≤ piece.length
    · have hl : (piece.take n).length = n := by simp [hn]
      simp [take?, split?, List.take_append_of_le_length hn, List.drop_append_of_le_length hn, hl]
    · have hl : piece.take n = piece := List.take_of_length_le (by omega)
      have hd : piece.drop n = [] := List.drop_of_length_le (by omega)
      have hi := ih (n - piece.length)
      simp only [take?, split?, hl, List.flatten_cons, List.take_append, List.drop_append, hd,
        List.length_append, List.nil_append] at hi ⊢
      rw [if_neg (by omega)]
      by_cases hr : (rest.flatten.take (n - piece.length)).length = n - piece.length
      · rw [if_pos hr] at hi
        obtain ⟨⟨more, rest'⟩, ht, he⟩ := Option.map_eq_some_iff.mp hi
        obtain ⟨hm, hr'⟩ := Prod.mk.inj he
        rw [if_pos (by omega), ht, ← hm, ← hr']
        rfl
      · rw [if_neg hr, Option.map_eq_none_iff] at hi
        rw [if_neg (by omega), hi]
        rfl

theorem take?_of_append {ps : Pieces} {xs ys : Bytes} (h : ps.flatten = xs ++ ys) :
    ∃ rest, ps.take? xs.length = some (xs, rest) ∧ rest.flatten = ys := by
  have ht := take?_flatten xs.length ps
  rw [h, split?_append] at ht
  obtain ⟨⟨front, rest⟩, hp, he⟩ := Option.map_eq_some_iff.mp ht
  cases he
  exact ⟨rest, hp, rfl⟩

theorem take?_of_short {ps : Pieces} {n : Nat} (h : ps.flatten.length < n) : ps.take? n = none := by
  have ht := take?_flatten n ps
  rw [split?, if_neg (by simp only [List.length_take]; omega), Option.map_eq_none_iff] at ht
  exact ht

/-- There are as many bytes in the pieces as in all of them together. -/
theorem size_eq_length_flatten (ps : Pieces) : ps.size = ps.flatten.length := by
  induction ps with
  | nil => rfl
  | cons piece rest ih => simp [size, ih]

end Pieces

namespace Frame

variable {α : Type}

/-- The bytes of a frame, whether or not its body may be as long. -/
def bytes (l : Layout α) (a : α) : Bytes := header (l.write a).length ++ l.write a

/-- The body of the value may stand in a frame. -/
def Fits (l : Layout α) (a : α) : Prop := (l.write a).length ≤ maxBody

theorem encode_of_fits {l : Layout α} {a : α} (h : Fits l a) : encode l a = .ok (bytes l a) :=
  if_pos h

@[simp] theorem length_header (n : Nat) : (header n).length = headerSize := by
  simp [header]

theorem length_bytes (l : Layout α) (a : α) :
    (bytes l a).length = headerSize + (l.write a).length := by
  simp [bytes]

theorem bodyLength_header {n : Nat} (h : n ≤ maxBody) : bodyLength (header n) = .ok n := by
  have hn : n < Nat.pow 256 headerSize := Nat.lt_of_le_of_lt h (by decide)
  simp only [bodyLength, header, List.reverse_reverse, ofLittleEndian_littleEndian _ n hn, h,
    if_true]

/-- A header is a first byte and three others. -/
theorem header_eq_append (n : Nat) :
    ∃ first others, header n = first ++ others ∧ first.length = 1 ∧
      others.length = headerSize - 1 :=
  ⟨(header n).take 1, (header n).drop 1, (List.take_append_drop 1 _).symm, by simp [headerSize],
    by simp⟩

theorem decodeBody_write {l : Layout α} {a : α} (h : l.ReadsBack a) :
    decodeBody l (l.write a) = .ok a := by
  have hr := h []
  rw [List.append_nil] at hr
  simp only [decodeBody, hr]

theorem encode_eq_ok {l : Layout α} {a : α} {bs : Bytes} (h : encode l a = .ok bs) :
    Fits l a ∧ bs = bytes l a := by
  simp only [encode] at h
  split at h
  · next hf =>
    cases h
    exact ⟨hf, rfl⟩
  · cases h

/-- A frame that is cut short behind its header has its header and less than its body. -/
theorem exists_torn_body {l : Layout α} {a : α} {front missing : Bytes} (hm : missing ≠ [])
    (h : front ++ missing = bytes l a) (h4 : headerSize ≤ front.length) :
    ∃ body, front = header (l.write a).length ++ body ∧ body.length < (l.write a).length := by
  have hl : (header (l.write a).length).length ≤ front.length := by
    rw [length_header]
    exact h4
  obtain ⟨body, rfl⟩ := List.prefix_of_prefix_length_le ⟨l.write a, rfl⟩ ⟨missing, h⟩ hl
  rw [bytes, List.append_assoc] at h
  have hw : body ++ missing = l.write a := List.append_cancel_left h
  have hpos := List.length_pos_iff.mpr hm
  refine ⟨body, rfl, ?_⟩
  rw [← hw, List.length_append]
  omega

/-- Wherever a stream of frames is cut, some frames stand before the cut in full, and of the next one,
if there is one, a byte at least is missing. -/
theorem exists_cut {l : Layout α} {fs : List α} {front behind : Bytes}
    (h : front ++ behind = fs.flatMap (bytes l)) :
    ∃ done left torn, fs = done ++ left ∧ front = done.flatMap (bytes l) ++ torn ∧
      (left = [] ∧ torn = [] ∨
        ∃ f more missing, left = f :: more ∧ missing ≠ [] ∧ torn ++ missing = bytes l f) := by
  induction fs generalizing front with
  | nil => exact ⟨[], [], [], rfl, (List.append_eq_nil_iff.mp h).1, .inl ⟨rfl, rfl⟩⟩
  | cons f fs ih =>
    -- Unless the cut goes through the first frame, the others are cut where the stream is.
    have hcut : (∃ missing, missing ≠ [] ∧ front ++ missing = bytes l f) ∨
        ∃ front', front = bytes l f ++ front' ∧ front' ++ behind = fs.flatMap (bytes l) := by
      rcases List.append_eq_append_iff.mp h with ⟨missing, hb, hm⟩ | ⟨front', hf, hr⟩
      · by_cases hn : missing = []
        · subst hn
          exact .inr ⟨[], by simpa using hb.symm, hm⟩
        · exact .inl ⟨missing, hn, hb.symm⟩
      · exact .inr ⟨front', hf, hr.symm⟩
    rcases hcut with ⟨missing, hm, hb⟩ | ⟨front', hf, hr⟩
    · exact ⟨[], f :: fs, front, rfl, rfl, .inr ⟨f, fs, missing, rfl, hm, hb⟩⟩
    obtain ⟨done, left, torn, hfs, hd, ht⟩ := ih hr
    refine ⟨f :: done, left, torn, by rw [hfs, List.cons_append], ?_, ht⟩
    rw [hf, hd, List.flatMap_cons, List.append_assoc]

end Frame

theorem clientFrame_readsBack_of_fits {f : ClientFrame} (h : Frame.Fits .clientFrame f) :
    Layout.clientFrame.ReadsBack f := by
  apply Layout.clientFrame_readsBack
  intro s hs
  have hl := Layout.length_utf8_le_clientFrame hs
  exact Nat.lt_of_le_of_lt (Nat.le_trans hl h) (by decide)

theorem serverFrame_readsBack_of_fits {f : ServerFrame} (h : Frame.Fits .serverFrame f) :
    Layout.serverFrame.ReadsBack f := by
  apply Layout.serverFrame_readsBack
  intro s hs
  have hl := Layout.length_utf8_le_serverFrame hs
  exact Nat.lt_of_le_of_lt (Nat.le_trans hl h) (by decide)

variable {α : Type}

/-- A frame that has arrived in full is read, and what follows it is left. -/
theorem readFrame_bytes {l : Layout α} {a : α} (hf : Frame.Fits l a) (hl : l.ReadsBack a)
    {ps : Pieces} {more : Bytes} (h : ps.flatten = Frame.bytes l a ++ more) :
    ∃ rest, readFrame l ps = .frame a rest ∧ rest.flatten = more := by
  obtain ⟨first, others, hh, h1, h3⟩ := Frame.header_eq_append (l.write a).length
  rw [Frame.bytes, hh, List.append_assoc, List.append_assoc] at h
  obtain ⟨ps₁, ht₁, hr₁⟩ := Pieces.take?_of_append h
  obtain ⟨ps₂, ht₂, hr₂⟩ := Pieces.take?_of_append hr₁
  obtain ⟨ps₃, ht₃, hr₃⟩ := Pieces.take?_of_append hr₂
  rw [h1] at ht₁
  rw [h3] at ht₂
  refine ⟨ps₃, ?_, hr₃⟩
  simp only [readFrame, ht₁, ht₂, readBody, ← hh, Frame.bodyLength_header hf, ht₃,
    Frame.decodeBody_write hl]

/-- Less than a header is a part of a frame. -/
theorem readFrame_of_torn_header (l : Layout α) {ps : Pieces} (h0 : ps.flatten ≠ [])
    (h4 : ps.flatten.length < Frame.headerSize) : readFrame l ps = .part := by
  obtain ⟨b, bs, hb⟩ := List.exists_cons_of_ne_nil h0
  have hb' : ps.flatten = [b] ++ bs := hb
  obtain ⟨ps₁, ht₁, hr₁⟩ := Pieces.take?_of_append hb'
  have ht₂ : ps₁.take? (Frame.headerSize - 1) = none := by
    apply Pieces.take?_of_short
    rw [hb, List.length_cons] at h4
    rw [hr₁]
    omega
  simp only [List.length_singleton] at ht₁
  simp only [readFrame, ht₁, ht₂]

/-- A header without all of its body is a part of a frame. -/
theorem readFrame_of_torn_body (l : Layout α) {ps : Pieces} {n : Nat} {body : Bytes}
    (hn : n ≤ Frame.maxBody) (h : ps.flatten = Frame.header n ++ body) (hb : body.length < n) :
    readFrame l ps = .part := by
  obtain ⟨first, others, hh, h1, h3⟩ := Frame.header_eq_append n
  rw [hh, List.append_assoc] at h
  obtain ⟨ps₁, ht₁, hr₁⟩ := Pieces.take?_of_append h
  obtain ⟨ps₂, ht₂, hr₂⟩ := Pieces.take?_of_append hr₁
  have ht₃ : ps₂.take? n = none := Pieces.take?_of_short (by rw [hr₂]; exact hb)
  rw [h1] at ht₁
  rw [h3] at ht₂
  simp only [readFrame, ht₁, ht₂, readBody, ← hh, Frame.bodyLength_header hn, ht₃]

theorem readFrame_of_nil (l : Layout α) {ps : Pieces} (h : ps.flatten = []) :
    readFrame l ps = .nothing := by
  have ht : ps.take? 1 = none := Pieces.take?_of_short (by rw [h]; decide)
  simp only [readFrame, ht]

/-- Of a frame of which a byte is there and a byte is missing, a part is there. -/
theorem readFrame_of_torn {l : Layout α} {a : α} (hf : Frame.Fits l a) {ps : Pieces} {rest : Bytes}
    (h : ps.flatten ++ rest = Frame.bytes l a) (h0 : ps.flatten ≠ []) (hr : rest ≠ []) :
    readFrame l ps = .part := by
  by_cases h4 : ps.flatten.length < Frame.headerSize
  · exact readFrame_of_torn_header l h0 h4
  · obtain ⟨body, hb, hlt⟩ := Frame.exists_torn_body hr h (Nat.le_of_not_lt h4)
    exact readFrame_of_torn_body l hf hb hlt

end ScriptedPeer.Wire
