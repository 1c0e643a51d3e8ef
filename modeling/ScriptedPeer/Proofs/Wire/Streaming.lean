import ScriptedPeer.Call.Exchange
import ScriptedPeer.Proofs.Wire.BackToBack

/-!
# A stream is read as its bytes are decoded

There are two ways to come to a frame: to decode the front of bytes that are all there, and to read
bytes as they arrive, in pieces. Both find the same frame and take the same bytes for it, and where
one finds a fault so does the other. Bytes that are cut short are an end of the stream inside a
frame to the reader, and no bytes at all are the proper end of a stream. A length that is too large
is refused before any byte of the body.
-/

namespace ScriptedPeer.Wire

variable {α : Type}

/-- What the reading of a frame comes to when nothing more arrives: a frame and what follows it, or
nothing at all, or a fault. -/
def Reading.atEnd : Reading α → Except CallFault (Option (α × Pieces))
  | .frame value rest => .ok (some (value, rest))
  | .nothing => .ok none
  | .part => .error .earlyEnd
  | .refused fault => .error (.wire fault)

/-- Whatever follows, the bytes are no frame. -/
def Fault.isFinal : Fault → Bool
  | .truncated .. => false
  | .body _ | .tooLarge .. => true

namespace Frame

variable {l : Layout α}

theorem isFinal_of_bodyLength {head : Bytes} {fault : Fault} (h : bodyLength head = .error fault) :
    fault.isFinal = true := by
  simp only [bodyLength] at h
  split at h
  · cases h
  · cases h
    rfl

theorem isFinal_of_decodeBody {body : Bytes} {fault : Fault}
    (h : decodeBody l body = .error fault) : fault.isFinal = true := by
  cases hr : l.read body with
  | ok p => simp only [decodeBody, hr, reduceCtorEq] at h
  | error why =>
    simp only [decodeBody, hr] at h
    cases h
    rfl

/-- Bytes that are as long as a header begin with one. -/
theorem exists_header {bs : Bytes} (h : headerSize ≤ bs.length) :
    ∃ head rest, bs = head ++ rest ∧ head.length = headerSize :=
  ⟨bs.take headerSize, bs.drop headerSize, (List.take_append_drop ..).symm, by
    rw [List.length_take, Nat.min_eq_left h]⟩

end Frame

open Wire.Frame

variable {l : Layout α} {ps : Pieces}

/-- Behind a header the body is read, in whatever pieces it is there. -/
theorem readFrame_of_header (l : Layout α) {head body : Bytes} (h4 : head.length = headerSize)
    (h : ps.flatten = head ++ body) :
    ∃ rest, readFrame l ps = readBody l head rest ∧ rest.flatten = body := by
  have h1 : (head.take 1).length = 1 := by
    rw [List.length_take, h4]
    rfl
  have h3 : (head.drop 1).length = headerSize - 1 := by rw [List.length_drop, h4]
  rw [← List.take_append_drop 1 head, List.append_assoc] at h
  obtain ⟨ps₁, ht₁, hr₁⟩ := Pieces.take?_of_append h
  obtain ⟨ps₂, ht₂, hr₂⟩ := Pieces.take?_of_append hr₁
  rw [h1] at ht₁
  rw [h3] at ht₂
  refine ⟨ps₂, ?_, hr₂⟩
  simp only [readFrame, ht₁, ht₂, List.take_append_drop]

/-- How the reader of a stream and the decoder of its bytes agree. -/
inductive Agreement (l : Layout α) (ps : Pieces) : Prop where
  | frame (a : α) (used : Nat) (rest : Pieces) (hused : used ≤ ps.flatten.length)
      (hrest : rest.flatten = ps.flatten.drop used) (hd : decode l ps.flatten = .ok (a, used))
      (hr : readFrame l ps = .frame a rest)
  | nothing (h : ps.flatten = []) (hr : readFrame l ps = .nothing)
  | part (expected : Nat) (h : ps.flatten ≠ [])
      (hd : decode l ps.flatten = .error (.truncated expected ps.flatten.length))
      (hr : readFrame l ps = .part)
  | refused (fault : Fault) (hf : fault.isFinal = true) (hd : decode l ps.flatten = .error fault)
      (hr : readFrame l ps = .refused fault)

/-- Bytes that hold a header: what both make of them depends on the length it gives, on whether the
body is there, and on the body. -/
theorem agreement_of_header {head body : Bytes} (h4 : head.length = headerSize)
    (h : ps.flatten = head ++ body) : Agreement l ps := by
  obtain ⟨rest, hread, hrest⟩ := readFrame_of_header l h4 h
  have hdecode := decode_append (l := l) h4 body
  rw [← h] at hdecode
  have hlength : ps.flatten.length = headerSize + body.length := by
    rw [h, List.length_append, h4]
  have hne : ps.flatten ≠ [] := by
    intro h0
    rw [h0] at hlength
    simp [headerSize] at hlength
    omega
  cases hn : bodyLength head with
  | error fault =>
    refine .refused fault (isFinal_of_bodyLength hn) (by rw [hdecode, hn]) ?_
    rw [hread]
    simp only [readBody, hn]
  | ok n =>
    have htake := Pieces.take?_flatten n rest
    rw [hrest] at htake
    cases hs : split? n body with
    | none =>
      rw [hs, Option.map_eq_none_iff] at htake
      refine .part (headerSize + n) hne ?_ ?_
      · simp only [hdecode, hn, hs, hlength]
      · rw [hread]
        simp only [readBody, hn, htake]
    | some p =>
      rw [hs] at htake
      obtain ⟨⟨front, rest'⟩, hp, rfl⟩ := Option.map_eq_some_iff.mp htake
      obtain ⟨hbody, hfront⟩ := split?_eq_some hs
      cases ha : decodeBody l front with
      | error fault =>
        refine .refused fault (isFinal_of_decodeBody ha) ?_ ?_
        · simp only [hdecode, hn, hs, ha, Except.map]
        · rw [hread]
          simp only [readBody, hn, hp, ha]
      | ok a =>
        refine .frame a (headerSize + n) rest' ?_ ?_ ?_ ?_
        · rw [hlength, hbody, List.length_append]
          omega
        · rw [h, hbody, ← h4, ← hfront, ← List.append_assoc, ← List.length_append, List.drop_left]
        · simp only [hdecode, hn, hs, ha, Except.map]
        · rw [hread]
          simp only [readBody, hn, hp, ha]

/-- Whatever the bytes are and however they arrive, the reader and the decoder agree on them. -/
theorem agreement (l : Layout α) (ps : Pieces) : Agreement l ps := by
  by_cases h0 : ps.flatten = []
  · exact .nothing h0 (readFrame_of_nil l h0)
  by_cases h4 : ps.flatten.length < headerSize
  · exact .part headerSize h0 (decode_of_short h4) (readFrame_of_torn_header l h0 h4)
  · obtain ⟨head, body, h, hl⟩ := exists_header (Nat.le_of_not_lt h4)
    exact agreement_of_header hl h

theorem decode_of_nothing (h : ps.flatten = []) :
    decode l ps.flatten = .error (.truncated headerSize 0) := by
  rw [h]
  exact decode_of_short (by decide)

/-- What the decoder takes for a frame the reader reads, and it leaves as much. -/
theorem readFrame_of_decoded {a : α} {used : Nat} (h : decode l ps.flatten = .ok (a, used)) :
    used ≤ ps.flatten.length ∧
      ∃ rest, readFrame l ps = .frame a rest ∧ rest.flatten = ps.flatten.drop used := by
  cases agreement l ps with
  | frame b used' rest hused hrest hd hr =>
    obtain ⟨rfl, rfl⟩ := Prod.mk.inj (Except.ok.inj (hd.symm.trans h))
    exact ⟨hused, rest, hr, hrest⟩
  | nothing h0 hr => exact nomatch (decode_of_nothing h0).symm.trans h
  | part expected h0 hd hr => exact nomatch hd.symm.trans h
  | refused fault hf hd hr => exact nomatch hd.symm.trans h

/-- What the decoder refuses for good the reader refuses in the same words. -/
theorem readFrame_of_final {fault : Fault} (hf : fault.isFinal = true)
    (h : decode l ps.flatten = .error fault) : readFrame l ps = .refused fault := by
  cases agreement l ps with
  | frame a used rest hused hrest hd hr => exact nomatch hd.symm.trans h
  | nothing h0 hr =>
    cases (decode_of_nothing h0).symm.trans h
    cases hf
  | part expected h0 hd hr =>
    cases hd.symm.trans h
    cases hf
  | refused fault' hf' hd hr =>
    cases hd.symm.trans h
    exact hr

/-- A frame that is read takes a byte at least. -/
theorem size_lt_of_readFrame {a : α} {rest : Pieces} (h : readFrame l ps = .frame a rest) :
    rest.size < ps.size := by
  cases agreement l ps with
  | frame b used rest' hused hrest hd hr =>
    obtain ⟨rfl, rfl⟩ := Reading.frame.inj (hr.symm.trans h)
    have hmin := headerSize_le_of_decode hd
    rw [headerSize] at hmin
    rw [Pieces.size_eq_length_flatten, Pieces.size_eq_length_flatten, hrest, List.length_drop]
    omega
  | nothing h0 hr => cases hr.symm.trans h
  | part expected h0 hd hr => cases hr.symm.trans h
  | refused fault hf hd hr => cases hr.symm.trans h

/-- A length beyond the limit is refused by both, whatever follows the header. -/
theorem refused_of_large {n : Nat} {head : Bytes}
    (hn : bodyLength head = .error (.tooLarge maxBody n)) (h4 : head.length = headerSize)
    (body : Bytes) :
    decode l (head ++ body) = .error (.tooLarge maxBody n) ∧
      ∀ ps : Pieces, ps.flatten = head ++ body →
        readFrame l ps = .refused (.tooLarge maxBody n) := by
  constructor
  · simp only [decode_append h4, hn]
  · intro ps h
    obtain ⟨rest, hread, -⟩ := readFrame_of_header l h4 h
    rw [hread]
    simp only [readBody, hn]

/-- The number that four bytes spell, the most significant first. -/
def spelledLength (b₀ b₁ b₂ b₃ : UInt8) : Nat :=
  ((b₀.toNat * 256 + b₁.toNat) * 256 + b₂.toNat) * 256 + b₃.toNat

theorem bodyLength_of_large {b₀ b₁ b₂ b₃ : UInt8} (h : maxBody < spelledLength b₀ b₁ b₂ b₃) :
    bodyLength [b₀, b₁, b₂, b₃] = .error (.tooLarge maxBody (spelledLength b₀ b₁ b₂ b₃)) := by
  have hn : ofLittleEndian [b₀, b₁, b₂, b₃].reverse = spelledLength b₀ b₁ b₂ b₃ := by
    simp only [List.reverse_cons, List.reverse_nil, List.nil_append, List.cons_append,
      ofLittleEndian, spelledLength]
    omega
  simp only [bodyLength, hn, if_neg (Nat.not_le.mpr h)]

/-- The reader comes to a frame just if the decoder does. -/
theorem atEnd_eq_frame_iff (a : α) : (∃ rest, (readFrame l ps).atEnd = .ok (some (a, rest))) ↔
    ∃ used, decode l ps.flatten = .ok (a, used) := by
  cases agreement l ps with
  | frame b used rest hused hrest hd hr => simp [hr, hd, Reading.atEnd, eq_comm]
  | nothing h hr => simp [hr, decode_of_nothing h, Reading.atEnd]
  | part expected h hd hr => simp [hr, hd, Reading.atEnd]
  | refused fault hf hd hr => simp [hr, hd, Reading.atEnd]

theorem length_of_atEnd_eq_frame {a b : α} {rest : Pieces} {used : Nat}
    (h : (readFrame l ps).atEnd = .ok (some (a, rest))) (hb : decode l ps.flatten = .ok (b, used)) :
    used + rest.flatten.length = ps.flatten.length ∧ rest.flatten = ps.flatten.drop used := by
  cases agreement l ps with
  | frame c used' rest' hused hrest hd hr =>
    simp only [hr, Reading.atEnd, Except.ok.injEq, Option.some.injEq, Prod.mk.injEq] at h
    simp only [hd, Except.ok.injEq, Prod.mk.injEq] at hb
    rw [← h.2, ← hb.2, hrest, List.length_drop]
    exact ⟨Nat.add_sub_cancel' hused, rfl⟩
  | nothing h0 hr => simp [hr, Reading.atEnd] at h
  | part expected h0 hd hr => simp [hr, Reading.atEnd] at h
  | refused fault hf hd hr => simp [hr, Reading.atEnd] at h

/-- Only a stream without a byte ends cleanly. -/
theorem atEnd_readFrame_eq_none_iff : (readFrame l ps).atEnd = .ok none ↔ ps.flatten = [] := by
  cases agreement l ps with
  | frame a used rest hused hrest hd hr =>
    simp only [hr, Reading.atEnd, Except.ok.injEq, reduceCtorEq, false_iff]
    intro h0
    rw [decode_of_nothing h0] at hd
    cases hd
  | nothing h hr => simp [hr, h, Reading.atEnd]
  | part expected h hd hr => simp [hr, h, Reading.atEnd]
  | refused fault hf hd hr =>
    simp only [hr, Reading.atEnd, reduceCtorEq, false_iff]
    intro h0
    rw [decode_of_nothing h0] at hd
    cases hd
    cases hf

/-- A stream ends early just where the decoder asks for more bytes. -/
theorem atEnd_eq_earlyEnd_iff : (readFrame l ps).atEnd = .error .earlyEnd ↔
    ps.flatten ≠ [] ∧
      ∃ expected actual, decode l ps.flatten = .error (.truncated expected actual) := by
  cases agreement l ps with
  | frame a used rest hused hrest hd hr => simp [hr, hd, Reading.atEnd]
  | nothing h hr => simp [hr, h, Reading.atEnd]
  | part expected h hd hr => simp [hr, h, hd, Reading.atEnd]
  | refused fault hf hd hr =>
    cases fault with
    | truncated _ _ => cases hf
    | body _ | tooLarge _ _ => simp [hr, hd, Reading.atEnd, CallFault.earlyEnd]

/-- A fault that is final is the same for both. -/
theorem atEnd_eq_fault_iff {fault : Fault} (hf : fault.isFinal = true) :
    (readFrame l ps).atEnd = .error (.wire fault) ↔ decode l ps.flatten = .error fault := by
  cases agreement l ps with
  | frame a used rest hused hrest hd hr => simp [hr, hd, Reading.atEnd]
  | nothing h hr =>
    rw [hr, decode_of_nothing h]
    cases fault with
    | truncated _ _ => cases hf
    | body _ | tooLarge _ _ => simp [Reading.atEnd]
  | part expected h hd hr =>
    rw [hr, hd]
    cases fault with
    | truncated _ _ => cases hf
    | body _ | tooLarge _ _ => simp [Reading.atEnd, CallFault.earlyEnd]
  | refused fault' hf' hd hr => simp [hr, hd, Reading.atEnd]

/-- However a stream is divided, the reader finds a frame exactly if the decoder finds it in all
the bytes, and has then taken as many of them. Without a byte there is no frame and no fault. Bytes
that are cut short are the end of the stream inside a frame, and every other fault is the same for
both. A length that is too large is refused once its header is there. -/
theorem atEnd_readFrame (l : Layout α) (ps : Pieces) :
    (∀ a, (∃ rest, (readFrame l ps).atEnd = .ok (some (a, rest))) ↔
      ∃ used, decode l ps.flatten = .ok (a, used)) ∧
    -- The same bytes are taken for the frame, and those behind them are left.
    (∀ a b rest used, (readFrame l ps).atEnd = .ok (some (a, rest)) →
      decode l ps.flatten = .ok (b, used) →
      used + rest.flatten.length = ps.flatten.length ∧ rest.flatten = ps.flatten.drop used) ∧
    ((readFrame l ps).atEnd = .ok none ↔ ps.flatten = []) ∧
    ((readFrame l ps).atEnd = .error (.network "early eof") ↔ ps.flatten ≠ [] ∧
      ∃ expected actual, decode l ps.flatten = .error (.truncated expected actual)) ∧
    (∀ limit actual, (readFrame l ps).atEnd = .error (.wire (.tooLarge limit actual)) ↔
      decode l ps.flatten = .error (.tooLarge limit actual)) ∧
    (∀ why, (readFrame l ps).atEnd = .error (.wire (.body why)) ↔
      decode l ps.flatten = .error (.body why)) ∧
    -- The four bytes of a header are enough to refuse its length.
    ∀ b₀ b₁ b₂ b₃ body, maxBody < spelledLength b₀ b₁ b₂ b₃ →
      ps.flatten = [b₀, b₁, b₂, b₃] ++ body →
      decode l ps.flatten = .error (.tooLarge maxBody (spelledLength b₀ b₁ b₂ b₃)) ∧
        (readFrame l ps).atEnd =
          .error (.wire (.tooLarge maxBody (spelledLength b₀ b₁ b₂ b₃))) := by
  refine ⟨atEnd_eq_frame_iff, fun a b rest used => length_of_atEnd_eq_frame,
    atEnd_readFrame_eq_none_iff, atEnd_eq_earlyEnd_iff, fun limit actual => atEnd_eq_fault_iff rfl,
    fun why => atEnd_eq_fault_iff rfl, ?_⟩
  intro b₀ b₁ b₂ b₃ body hn h
  obtain ⟨hdecode, hread⟩ := refused_of_large (l := l) (bodyLength_of_large hn) rfl body
  rw [hread ps h, h, hdecode]
  exact ⟨rfl, rfl⟩

/-- A closing frame of eight bytes in three pieces, the second of which begins inside the header,
and a byte behind it. -/
def threePieces : Pieces := [[0], [0, 0, 4, 4, 0], [0, 0, 7]]

/-- The frame is read and the byte behind it is left; two bytes of a header are no frame, and the
length of a mebibyte and one is refused although nothing follows it. -/
theorem atEnd_readFrame_threePieces :
    (∃ rest, (readFrame .clientFrame threePieces).atEnd = .ok (some (.finish, rest)) ∧
      rest.flatten = [7]) ∧
    (readFrame .clientFrame [[0], [0]]).atEnd = .error (.network "early eof") ∧
    maxBody < spelledLength 0 16 0 1 ∧
    (readFrame .clientFrame [[0, 16], [0, 1]]).atEnd =
      .error (.wire (.tooLarge 1048576 1048577)) := by
  have hf : Fits .clientFrame .finish := by
    rw [Fits]
    decide +kernel
  have hb : threePieces.flatten = bytes .clientFrame .finish ++ [7] := by decide +kernel
  have hd : decode .clientFrame threePieces.flatten = .ok (.finish, 8) := by
    rw [hb]
    exact decode_bytes_append hf (clientFrame_readsBack_of_fits hf) [7]
  have hn : maxBody < spelledLength 0 16 0 1 := by decide
  obtain ⟨hframe, htaken, -⟩ := atEnd_readFrame .clientFrame threePieces
  obtain ⟨rest, hr⟩ := (hframe .finish).mpr ⟨8, hd⟩
  obtain ⟨-, -, -, htorn, -⟩ := atEnd_readFrame .clientFrame [[0], [0]]
  obtain ⟨-, -, -, -, -, -, hlarge⟩ := atEnd_readFrame .clientFrame [[0, 16], [0, 1]]
  refine ⟨⟨rest, hr, (htaken _ _ rest 8 hr hd).2⟩, htorn.mpr ⟨by decide, 4, 2, rfl⟩, hn, ?_⟩
  exact (hlarge 0 16 0 1 [] hn rfl).2

end ScriptedPeer.Wire

namespace ScriptedPeer

open Wire

/-- A call that breaks off at its first frame is reported with what that frame comes to. -/
theorem CallReading.atEnd_read_of_fault {ps : Pieces} {fault : CallFault}
    (h : (readFrame .clientFrame ps).atEnd = .error fault) :
    (CallReading.read ps).atEnd = .error fault := by
  cases hr : readFrame .clientFrame ps with
  | frame f rest => simp [hr, Reading.atEnd] at h
  | nothing => simp [hr, Reading.atEnd] at h
  | part => simpa [hr, Reading.atEnd, CallReading.read, CallReading.atEnd] using h
  | refused why => simpa [hr, Reading.atEnd, CallReading.read, CallReading.atEnd] using h

/-- A caller is told what the first frame of the answer comes to. -/
theorem Call.receive_of_fault {ps : Pieces} {fault : CallFault} (m : Method)
    (h : (readFrame .serverFrame ps).atEnd = .error fault) : Call.receive m ps = .error fault := by
  cases hr : readFrame .serverFrame ps with
  | frame f rest => simp [hr, Reading.atEnd] at h
  | nothing => simp [hr, Reading.atEnd] at h
  | part => simpa [hr, Reading.atEnd, Call.receive] using h
  | refused why => simpa [hr, Reading.atEnd, Call.receive] using h

end ScriptedPeer
