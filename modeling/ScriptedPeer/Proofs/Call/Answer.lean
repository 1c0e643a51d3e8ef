import Mathlib.Logic.ExistsUnique
import ScriptedPeer.Proofs.Call.Dispatch
import ScriptedPeer.Proofs.Wire.Acceptance

/-!
# Whatever comes as an answer

A caller does not know who answers it, and any bytes may come. What stands at their front is one of
five things, which can be told from the bytes themselves: a frame, nothing, a part of a frame, a
length beyond the limit, or a body that spells no frame. The result of a call depends on this and on
the method called, and on nothing that comes later.
-/

namespace ScriptedPeer

open Wire Wire.Frame

/-- The bytes that spell a frame of an answer. -/
def ServerFrame.spelling (f : ServerFrame) : Bytes := BodyKind.serverFrame.spelling f

theorem ServerFrame.write_eq_spelling (f : ServerFrame) :
    Layout.serverFrame.write f = f.spelling := BodyKind.serverFrame.write_eq_spelling f

namespace Wire.Frame

/-- Four bytes are the header of a length. -/
theorem exists_eq_header {head : Bytes} (h4 : head.length = headerSize) :
    ∃ n, n < Nat.pow 256 headerSize ∧ head = header n := by
  have hlt := ofLittleEndian_lt head.reverse
  rw [List.length_reverse, h4] at hlt
  exact ⟨_, hlt, eq_header h4⟩

theorem bodyLength_header_of_large {n : Nat} (h : maxBody < n) (hn : n < Nat.pow 256 headerSize) :
    bodyLength (header n) = .error (.tooLarge maxBody n) := by
  simp only [bodyLength, header, List.reverse_reverse, ofLittleEndian_littleEndian _ n hn,
    if_neg (Nat.not_le.mpr h)]

/-- A body that begins with the spelling of a frame is decoded as that frame. -/
theorem decodeBody_of_spelling {f : ServerFrame} {body : Bytes} (hn : body.length ≤ maxBody)
    (h : f.spelling <+: body) : decodeBody .serverFrame body = .ok f := by
  rw [← ServerFrame.write_eq_spelling] at h
  have hf : Fits .serverFrame f := Nat.le_trans h.length_le hn
  exact decodeBody_of_prefix (serverFrame_readsBack_of_fits hf) h

theorem spelling_of_read {f : ServerFrame} {body rest : Bytes}
    (h : Layout.serverFrame.read body = .ok (f, rest)) : f.spelling <+: body := by
  rw [← ServerFrame.write_eq_spelling]
  exact (prefix_of_decodeBody Layout.serverFrame_readsOnly (decodeBody_eq_ok.mpr ⟨rest, h⟩)).2

/-- A body is not read because it spells no frame. -/
theorem not_spelling_of_fault {body : Bytes} {why : BodyFault} (hn : body.length ≤ maxBody)
    (h : Layout.serverFrame.read body = .error why) (f : ServerFrame) : ¬ f.spelling <+: body := by
  intro hf
  obtain ⟨rest, hok⟩ := decodeBody_eq_ok.mp (decodeBody_of_spelling hn hf)
  rw [h] at hok
  cases hok

end Wire.Frame

theorem Method.name_injective : Function.Injective name := by
  intro m m' h
  cases m <;> cases m' <;> first | rfl | exact absurd h (by decide)

namespace Call

/-- The bytes begin with a header and a body of the length that it gives. -/
structure BodyFirst (body bs : Bytes) : Prop where
  length_le : body.length ≤ maxBody
  begins : header body.length ++ body <+: bs

/-- What may stand at the front of an answer. -/
inductive Front where
  | frame (f : ServerFrame)
  | nothing
  /-- The bytes end inside a frame. -/
  | torn
  /-- The length of a body that no frame may have. -/
  | oversized (length : Nat)
  /-- A body that spells no frame, and why it is not read as one. -/
  | garbled (why : BodyFault)

namespace Front

/-- What stands at the front of which bytes. -/
def StandsIn : Front → Bytes → Prop
  | frame f, bs => ∃ body, BodyFirst body bs ∧ f.spelling <+: body
  | nothing, bs => bs = []
  | torn, bs => bs ≠ [] ∧ (bs.length < headerSize ∨
      ∃ n body, n ≤ maxBody ∧ body.length < n ∧ bs = header n ++ body)
  | oversized n, bs => maxBody < n ∧ n < Nat.pow 256 headerSize ∧ header n <+: bs
  | garbled why, bs => ∃ body, BodyFirst body bs ∧
      (∀ f : ServerFrame, ¬ f.spelling <+: body) ∧
      Layout.serverFrame.read body = .error why

/-- What the reader of a stream makes of it. -/
def IsRead : Front → Reading ServerFrame → Prop
  | frame f, reading => ∃ rest, reading = .frame f rest
  | nothing, reading => reading = .nothing
  | torn, reading => reading = .part
  | oversized n, reading => reading = .refused (.tooLarge maxBody n)
  | garbled why, reading => reading = .refused (.body why)

/-- What it means to a caller of `m`. -/
def told (m : Method) : Front → Except CallFault Reply
  | frame (.reply reply) =>
    if reply.method = m then .ok reply else .error (unexpected m reply.method)
  | frame (.unimplemented served) => .error (.unimplemented served)
  | nothing => .error (.replyWithheld m)
  | torn => .error .earlyEnd
  | oversized n => .error (.wire (.tooLarge maxBody n))
  | garbled why => .error (.wire (.body why))

variable {front other : Front} {m : Method} {ps : Pieces}

theorem IsRead.eq {reading : Reading ServerFrame} (h : front.IsRead reading)
    (h' : other.IsRead reading) : front = other := by
  cases front with
  | frame f =>
    obtain ⟨rest, rfl⟩ := h
    cases other with
    | frame _ =>
      obtain ⟨_, h'⟩ := h'
      cases h'
      rfl
    | nothing | torn | oversized _ | garbled _ => cases h'
  | nothing | torn | oversized _ | garbled _ =>
    obtain rfl := h
    cases other with
    | frame _ =>
      obtain ⟨_, h'⟩ := h'
      cases h'
    | nothing | torn | oversized _ | garbled _ =>
      cases h' <;> rfl

theorem IsRead.receive (h : front.IsRead (readFrame .serverFrame ps)) (m : Method) :
    receive m ps = front.told m := by
  cases front with
  | frame f =>
    obtain ⟨rest, hr⟩ := h
    cases f <;> simp only [Call.receive, hr, told]
  | nothing =>
    rw [IsRead] at h
    simp only [Call.receive, h, told]
  | torn | oversized n | garbled why =>
    rw [IsRead] at h
    exact receive_of_fault m (by rw [h]; rfl)

theorem StandsIn.isRead (h : front.StandsIn ps.flatten) :
    front.IsRead (readFrame .serverFrame ps) := by
  cases front with
  | frame f =>
    obtain ⟨body, ⟨hn, rest, hb⟩, hf⟩ := h
    have hd := decode_of_body hn (decodeBody_of_spelling hn hf) rest
    rw [hb] at hd
    obtain ⟨-, rest, hr, -⟩ := readFrame_of_decoded hd
    exact ⟨rest, hr⟩
  | nothing => exact readFrame_of_nil _ h
  | torn =>
    obtain ⟨h0, hshort | ⟨n, body, hn, hlt, hb⟩⟩ := h
    · exact readFrame_of_torn_header _ h0 hshort
    · exact readFrame_of_torn_body _ hn hb hlt
  | oversized n =>
    obtain ⟨hlarge, hn, rest, hb⟩ := h
    exact (refused_of_large (bodyLength_header_of_large hlarge hn) (length_header n) rest).2 ps
      hb.symm
  | garbled why =>
    obtain ⟨body, ⟨hn, rest, hb⟩, -, hr⟩ := h
    apply readFrame_of_final rfl
    rw [← hb, List.append_assoc, decode_header_append hn, split?_append]
    simp only [decodeBody, hr, Except.map]

/-- Something stands at the front of any bytes. -/
theorem exists_standsIn (bs : Bytes) : ∃ front : Front, front.StandsIn bs := by
  by_cases h0 : bs = []
  · exact ⟨nothing, h0⟩
  by_cases h4 : bs.length < headerSize
  · exact ⟨torn, h0, .inl h4⟩
  obtain ⟨head, behind, rfl, hhead⟩ := exists_header (Nat.le_of_not_lt h4)
  obtain ⟨n, hn, rfl⟩ := exists_eq_header hhead
  rcases Nat.lt_or_ge maxBody n with hlarge | hn'
  · exact ⟨oversized n, hlarge, hn, List.prefix_append ..⟩
  rcases Nat.lt_or_ge behind.length n with hshort | hlong
  · exact ⟨torn, h0, .inr ⟨n, behind, hn', hshort, rfl⟩⟩
  -- The body is there.
  obtain ⟨body, rest, rfl, rfl⟩ : ∃ body rest, behind = body ++ rest ∧ body.length = n :=
    ⟨behind.take n, behind.drop n, (List.take_append_drop ..).symm, List.length_take_of_le hlong⟩
  have hfirst : BodyFirst body (header body.length ++ (body ++ rest)) :=
    ⟨hn', by rw [← List.append_assoc]; exact List.prefix_append ..⟩
  cases hr : Layout.serverFrame.read body with
  | ok p => exact ⟨frame p.1, body, hfirst, spelling_of_read hr⟩
  | error why => exact ⟨garbled why, body, hfirst, not_spelling_of_fault hn' hr, hr⟩

/-- One thing stands at the front of any bytes, and only one. -/
theorem existsUnique_standsIn (bs : Bytes) : ∃! front : Front, front.StandsIn bs := by
  obtain ⟨front, h⟩ := exists_standsIn bs
  refine ⟨front, h, fun other h' => ?_⟩
  rw [← List.flatten_singleton (l := bs)] at h h'
  exact h'.isRead.eq h.isRead

/-- A call succeeds just with a reply of its own method. -/
theorem told_eq_ok {reply : Reply} :
    front.told m = .ok reply ↔ front = frame (.reply reply) ∧ reply.method = m := by
  constructor
  · intro h
    cases front with
    | frame f =>
      cases f with
      | reply r =>
        rw [told] at h
        split at h
        · next hm =>
          cases h
          exact ⟨rfl, hm⟩
        · cases h
      | unimplemented _ => cases h
    | nothing | torn | oversized _ | garbled _ => cases h
  · rintro ⟨rfl, hm⟩
    exact if_pos hm

/-- A reply of another method is reported with both methods. -/
theorem told_eq_unexpected {actual : Method} : front.told m = .error (unexpected m actual) ↔
    ∃ reply : Reply, front = frame (.reply reply) ∧ reply.method = actual ∧ actual ≠ m := by
  constructor
  · intro h
    cases front with
    | frame f =>
      cases f with
      | reply r =>
        rw [told] at h
        split at h
        · cases h
        · next hm =>
          have hname := (CallFault.unexpectedReply.inj (Except.error.inj h)).2
          rw [← Method.name_injective hname]
          exact ⟨r, rfl, rfl, hm⟩
      | unimplemented _ => cases h
    | nothing | torn | oversized _ | garbled _ => cases h
  · rintro ⟨reply, rfl, rfl, hm⟩
    exact if_neg hm

/-- What came when a caller is told of a fault, other than a reply of another method. -/
def ofFault : CallFault → Option Front
  | .unimplemented served => some (frame (.unimplemented served))
  | .replyWithheld _ => some nothing
  | .network _ => some torn
  | .wire (.tooLarge _ n) => some (oversized n)
  | .wire (.body why) => some (garbled why)
  | .wire (.truncated ..) | .unexpectedReply .. | .connectionFailed .. | .timeout _
  | .malformed .. => none

/-- From any other fault it can be told what stood at the front. -/
theorem ofFault_of_told {fault : CallFault} (h : front.told m = .error fault)
    (hf : ∀ expected actual, fault ≠ .unexpectedReply expected actual) :
    ofFault fault = some front := by
  cases front with
  | frame f =>
    cases f with
    | reply r =>
      rw [told] at h
      split at h
      · cases h
      · exact absurd (Except.error.inj h).symm (hf _ _)
    | unimplemented _ =>
      cases h
      rfl
  | nothing | torn | oversized _ | garbled _ =>
    cases h
    rfl

end Front

/-- A caller is told what stands at the front of the answer. -/
theorem receive_eq_told {front : Front} {ps : Pieces} (h : front.StandsIn ps.flatten) (m : Method) :
    receive m ps = front.told m := h.isRead.receive m

theorem exists_told (m : Method) (ps : Pieces) :
    ∃ front : Front, front.StandsIn ps.flatten ∧ front.told m = receive m ps := by
  obtain ⟨front, h⟩ := Front.exists_standsIn ps.flatten
  exact ⟨front, h, (receive_eq_told h m).symm⟩

/-- A caller receives a reply just if its frame stands at the front and its method is that of the
call. -/
theorem receive_eq_ok_iff {m : Method} {ps : Pieces} {reply : Reply} : receive m ps = .ok reply ↔
    (Front.frame (.reply reply)).StandsIn ps.flatten ∧ reply.method = m := by
  constructor
  · intro h
    obtain ⟨front, hs, ht⟩ := exists_told m ps
    obtain ⟨rfl, hm⟩ := Front.told_eq_ok.mp (ht.trans h)
    exact ⟨hs, hm⟩
  · rintro ⟨hs, hm⟩
    rw [receive_eq_told hs]
    exact Front.told_eq_ok.mpr ⟨rfl, hm⟩

theorem receive_eq_unexpected_iff {m actual : Method} {ps : Pieces} :
    receive m ps = .error (unexpected m actual) ↔ ∃ reply : Reply,
      (Front.frame (.reply reply)).StandsIn ps.flatten ∧ reply.method = actual ∧ actual ≠ m := by
  constructor
  · intro h
    obtain ⟨front, hs, ht⟩ := exists_told m ps
    obtain ⟨reply, rfl, hm⟩ := Front.told_eq_unexpected.mp (ht.trans h)
    exact ⟨reply, hs, hm⟩
  · rintro ⟨reply, hs, hm⟩
    rw [receive_eq_told hs]
    exact Front.told_eq_unexpected.mpr ⟨reply, rfl, hm⟩

/-- A fault that tells what came is told of that alone. -/
theorem receive_eq_fault_iff {m : Method} {ps : Pieces} {fault : CallFault} {front : Front}
    (hf : Front.ofFault fault = some front) : receive m ps = .error fault ↔
      front.StandsIn ps.flatten ∧ front.told m = .error fault := by
  constructor
  · intro h
    obtain ⟨other, hs, ht⟩ := exists_told m ps
    rw [h] at ht
    have hother := Front.ofFault_of_told ht (by rintro _ _ rfl; cases hf)
    cases hf.symm.trans hother
    exact ⟨hs, ht⟩
  · rintro ⟨hs, ht⟩
    rw [receive_eq_told hs, ht]

/-- Whatever follows the body that stands first, and however the bytes are divided, a caller is told
the same. -/
theorem receive_eq_of_bodyFirst {body : Bytes} {ps ps' : Pieces} (h : BodyFirst body ps.flatten)
    (h' : BodyFirst body ps'.flatten) (m : Method) : receive m ps = receive m ps' := by
  cases hr : Layout.serverFrame.read body with
  | ok p =>
    have hstands {bs : Bytes} (h : BodyFirst body bs) : (Front.frame p.1).StandsIn bs :=
      ⟨body, h, spelling_of_read hr⟩
    rw [receive_eq_told (hstands h), receive_eq_told (hstands h')]
  | error why =>
    have hstands {bs : Bytes} (h : BodyFirst body bs) : (Front.garbled why).StandsIn bs :=
      ⟨body, h, not_spelling_of_fault h.length_le hr, hr⟩
    rw [receive_eq_told (hstands h), receive_eq_told (hstands h')]

theorem result_place_of_closed {r : Request} (hr : r.Fits) (patience : Nat) (ps : Pieces) :
    (place patience r (.answers ps true)).result = receive r.method ps := by
  simp only [place, write_of_fits r.frames hr, await_of_closed]

/-- Whatever bytes answer a request before the connection is closed, one thing stands at their front,
and from this and the method of the request the result follows. So a call succeeds with a reply of
its own method alone, and the calls of a single method have nothing left to refuse. -/
theorem result_of_answer (patience : Nat) (r : Request) (hr : r.Fits) (ps : Pieces) :
    let result := (place patience r (.answers ps true)).result
    let Stands := fun front : Front => front.StandsIn ps.flatten
    (∃! front, Stands front) ∧
    (∀ front, Stands front → result = front.told r.method) ∧
    (∀ reply, result = .ok reply ↔ Stands (.frame (.reply reply)) ∧ reply.method = r.method) ∧
    (∀ actual, result = .error (unexpected r.method actual) ↔
      ∃ reply, Stands (.frame (.reply reply)) ∧ reply.method = actual ∧ actual ≠ r.method) ∧
    (∀ served, result = .error (.unimplemented served) ↔
      Stands (.frame (.unimplemented served))) ∧
    (∀ m, result = .error (.replyWithheld m) ↔ ps.flatten = [] ∧ m = r.method) ∧
    (∀ why, result = .error (.network why) ↔ Stands .torn ∧ why = "early eof") ∧
    (∀ limit n, result = .error (.wire (.tooLarge limit n)) ↔
      Stands (.oversized n) ∧ limit = maxBody) ∧
    (∀ why, result = .error (.wire (.body why)) ↔ Stands (.garbled why)) ∧
    -- What follows the first frame does not matter.
    (∀ body ps', BodyFirst body ps.flatten → BodyFirst body ps'.flatten →
      (place patience r (.answers ps' true)).result = result) ∧
    (r.method ≠ .greet →
      (∀ identity, acknowledgement r.method result = .ok identity ↔
        ∃ reply ∈ [Reply.heartbeat identity, .tell identity, .narrate identity],
          Stands (.frame (.reply reply)) ∧ reply.method = r.method) ∧
      ∀ fault, acknowledgement r.method result = .error fault ↔ result = .error fault) ∧
    (r.method = .greet →
      (∀ g, greeting result = .ok g ↔ Stands (.frame (.reply (.greet g)))) ∧
      ∀ fault, greeting result = .error fault ↔ result = .error fault) := by
  intro result Stands
  have hresult (ps : Pieces) : (place patience r (.answers ps true)).result = receive r.method ps :=
    result_place_of_closed hr patience ps
  have hok (reply : Reply) :
      result = .ok reply ↔ Stands (.frame (.reply reply)) ∧ reply.method = r.method := by
    rw [← receive_eq_ok_iff, ← hresult]
  have hmethod : ∀ p, result = .ok p → p.method = r.method := fun p hp => ((hok p).mp hp).2
  simp only [result, hresult] at hok hmethod ⊢
  refine ⟨Front.existsUnique_standsIn _, fun front h => receive_eq_told h _, hok,
    fun _ => receive_eq_unexpected_iff, ?_, ?_, ?_, ?_, ?_, ?_, ?_, ?_⟩
  · intro served
    exact (receive_eq_fault_iff rfl).trans (and_iff_left rfl)
  · intro m
    exact (receive_eq_fault_iff rfl).trans (and_congr_right' (by simp [Front.told, eq_comm]))
  · intro why
    exact (receive_eq_fault_iff rfl).trans
      (and_congr_right' (by simp [Front.told, CallFault.earlyEnd, eq_comm]))
  · intro limit n
    exact (receive_eq_fault_iff rfl).trans (and_congr_right' (by simp [Front.told, eq_comm]))
  · intro why
    exact (receive_eq_fault_iff rfl).trans (and_iff_left rfl)
  · intro body ps' h h'
    exact receive_eq_of_bodyFirst h' h r.method
  · intro hm
    refine ⟨fun identity => ?_, fun fault => acknowledgement_eq_error_iff hm hmethod⟩
    rw [acknowledgement_eq_ok_iff hm hmethod]
    simp only [hok]
  · intro hm
    rw [hm] at hok hmethod ⊢
    refine ⟨fun g => ?_, fun fault => greeting_eq_error_iff hmethod⟩
    rw [greeting_eq_ok_iff, hok]
    exact and_iff_left rfl

/-- A reply to a Heartbeat, a byte that its body does not use, and another byte behind it. -/
def looseReply : Bytes :=
  [0, 0, 0, 19] ++ [0, 0, 0, 0, 0, 0, 0, 0, 2, 0, 0, 0, 0, 0, 0, 0, 109, 101, 9] ++ [7]

/-- In two pieces it acknowledges a Heartbeat. To a Tell it is a reply of another method, and nothing
else follows from the calls of a single method. -/
theorem result_of_answer_looseReply :
    let answer : Callee := .answers [looseReply.take 2, looseReply.drop 2] true
    let tell : Request := .tell ⟨"you", "hi", ⟨1⟩, ⟨0⟩⟩
    Request.Fits (.heartbeat "you") ∧ tell.Fits ∧
    acknowledgement .heartbeat (place 1000 (.heartbeat "you") answer).result = .ok "me" ∧
    acknowledgement .tell (place 1000 tell answer).result =
      .error (.unexpectedReply "Tell" "Heartbeat") := by
  intro answer tell
  have hheartbeat : Request.Fits (.heartbeat "you") := by
    intro f hf
    obtain rfl := List.mem_singleton.mp hf
    decide +kernel
  have htell : tell.Fits := by
    intro f hf
    obtain rfl := List.mem_singleton.mp hf
    decide +kernel
  have hstands : (Front.frame (.reply (.heartbeat "me"))).StandsIn
      [looseReply.take 2, looseReply.drop 2].flatten := by
    refine ⟨[0, 0, 0, 0, 0, 0, 0, 0, 2, 0, 0, 0, 0, 0, 0, 0, 109, 101, 9], ⟨by decide, ?_⟩, ?_⟩
    · decide +kernel
    · decide +kernel
  obtain ⟨-, -, -, -, -, -, -, -, -, -, hacknowledged, -⟩ := result_of_answer 1000
    (.heartbeat "you") hheartbeat [looseReply.take 2, looseReply.drop 2]
  obtain ⟨-, -, -, hunexpected, -, -, -, -, -, -, hfault, -⟩ := result_of_answer 1000 tell htell
    [looseReply.take 2, looseReply.drop 2]
  refine ⟨hheartbeat, htell, ?_, ?_⟩
  · exact ((hacknowledged nofun).1 "me").mpr ⟨.heartbeat "me", .head _, hstands, rfl⟩
  · exact ((hfault nofun).2 _).mpr
      ((hunexpected .heartbeat).mpr ⟨.heartbeat "me", hstands, rfl, nofun⟩)

end Call
end ScriptedPeer
