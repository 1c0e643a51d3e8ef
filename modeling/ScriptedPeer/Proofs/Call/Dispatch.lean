import ScriptedPeer.Proofs.Call.Delivery
import ScriptedPeer.Server

/-!
# A call over the wire is a call of the table

The calling side writes a request, its bytes reach the server in pieces, the server answers, and the
answer comes back in pieces. As long as the frames of the request may be written, all of this does
what the service table does when it is handed the request: once, with the same handlers and the same
stop afterwards, and with a result that says what the table has said.
-/

namespace ScriptedPeer

open Wire

/-- A stream that delivers everything in order, in pieces of its own choosing. No piece is empty,
since a stream of which nothing can be read is at its end. -/
structure Carrier where
  deliver : Bytes → Pieces
  flatten_deliver : ∀ bs, (deliver bs).flatten = bs
  ne_nil_of_mem_deliver : ∀ bs, ∀ piece ∈ deliver bs, piece ≠ []

instance {α : Type} (l : Layout α) (a : α) : Decidable (Frame.Fits l a) :=
  inferInstanceAs (Decidable (_ ≤ _))

namespace Carrier

/-- Everything in one piece. -/
def whole : Carrier where
  deliver bs := if bs = [] then [] else [bs]
  flatten_deliver bs := by
    split
    · next h => rw [h, List.flatten_nil]
    · exact List.append_nil bs
  ne_nil_of_mem_deliver bs piece hp := by
    split at hp
    · cases hp
    · next h =>
      rw [List.mem_singleton.mp hp]
      exact h

/-- Every byte in a piece of its own. -/
def bytewise : Carrier where
  deliver bs := bs.map fun b => [b]
  flatten_deliver bs := by
    induction bs with
    | nil => rfl
    | cons b bs ih => rw [List.map_cons, List.flatten_cons, ih, List.singleton_append]
  ne_nil_of_mem_deliver bs piece hp := by
    obtain ⟨b, -, rfl⟩ := List.mem_map.mp hp
    exact List.cons_ne_nil b []

end Carrier

namespace Server

/-- Pieces arrive on connection `n` one after the other, and its other end stays open. -/
def arriveAll (s : Server) (stop : StopSignal) (n : Nat) : Pieces → Outcome
  | [] => { server := s, stop }
  | piece :: rest =>
    let now := s.arrive stop n piece false
    let later := arriveAll now.server now.stop n rest
    { later with written := now.written ++ later.written, fired := now.fired || later.fired }

@[simp] theorem connections_setConnection (s : Server) (n : Nat) (c : Connection) :
    (s.setConnection n c).connections = s.connections.set n c := rfl

@[simp] theorem connections_accept (s : Server) : s.accept.connections =
    s.connections ++ [({} : Connection)] := rfl

/-- A connection takes no part in the answer to a call. -/
theorem answer_setConnection (s : Server) (n : Nat) (c : Connection) (stop : StopSignal)
    (r : Request) : (s.setConnection n c).answer stop r =
      { s.answer stop r with server := (s.answer stop r).server.setConnection n c } := by
  by_cases hb : r.method ∈ s.broken
  · simp only [answer, setConnection, hb, if_true]
  · cases he : encodeResponse (s.table.dispatch stop r).response with
    | ok written => simp only [answer, setConnection, hb, if_false, he]
    | error fault => simp only [answer, setConnection, hb, if_false, he, failed]

theorem arrive_of_open {s : Server} {stop : StopSignal} {n : Nat} {c : Connection} {piece : Bytes}
    (hc : s.connections[n]? = some c) (ho : c.isOpen = true)
    (hr : (CallReading.read (c.arrived ++ [piece])).isOpen = true) :
    s.arrive stop n piece false =
      { server := s.setConnection n { c with arrived := c.arrived ++ [piece] }, stop } := by
  simp [arrive, hc, ho, hr]

/-- A call is answered with the piece that completes it. -/
theorem arrive_of_call {s : Server} {stop : StopSignal} {n : Nat} {c : Connection} {piece : Bytes}
    {r : Request} {rest : Pieces} (hc : s.connections[n]? = some c) (ho : c.isOpen = true)
    (hr : CallReading.read (c.arrived ++ [piece]) = .call r rest) :
    s.arrive stop n piece false =
      { s.answer stop r with
        server := (s.answer stop r).server.setConnection n
          ⟨c.arrived ++ [piece], (s.answer stop r).written, false⟩ } := by
  simp [arrive, hc, ho, hr, CallReading.isOpen, conclude, CallReading.atEnd]

/-- A request whose bytes arrive in pieces is answered once, when the last of them is there. -/
theorem arriveAll_of_frames {r : Request} (hr : r.Fits) (stop : StopSignal) (n : Nat) (ps : Pieces)
    (hne : ∀ piece ∈ ps, piece ≠ []) (hps : ps ≠ []) (s : Server) (c : Connection)
    (hc : s.connections[n]? = some c) (ho : c.isOpen = true)
    (h : c.arrived.flatten ++ ps.flatten = framesBytes r.frames) :
    s.arriveAll stop n ps =
      { s.answer stop r with
        server := (s.answer stop r).server.setConnection n
          ⟨c.arrived ++ ps, (s.answer stop r).written, false⟩ } := by
  induction ps generalizing s c with
  | nil => exact absurd rfl hps
  | cons piece rest ih =>
    have hf : (c.arrived ++ [piece]).flatten ++ rest.flatten = framesBytes r.frames := by
      simpa using h
    by_cases hn : rest = []
    · subst hn
      obtain ⟨left, hread, -⟩ := CallReading.read_of_frames r hr (c.arrived ++ [piece]) []
        (by simpa using hf)
      simp only [arriveAll, arrive_of_call hc ho hread, List.append_nil, Bool.or_false]
    · have hm : rest.flatten ≠ [] := by
        obtain ⟨p, ps, rfl⟩ := List.exists_cons_of_ne_nil hn
        have hp := hne p (by simp)
        simp [hp]
      have hopen := CallReading.read_of_front r hr (c.arrived ++ [piece]) rest.flatten hm hf
      have hlt : n < s.connections.length := (List.getElem?_eq_some_iff.mp hc).1
      have hc' : (s.setConnection n { c with arrived := c.arrived ++ [piece] }).connections[n]? =
          some { c with arrived := c.arrived ++ [piece] } := by
        simp [hlt]
      have hi := ih (fun p hp => hne p (.tail _ hp)) hn _ _ hc' ho hf
      simp only [arriveAll, arrive_of_open hc ho hopen, hi, answer_setConnection]
      simp [setConnection]

/-- Where every handler works, answering a call is dispatching it, whatever can be written of the
response. -/
theorem answer_eq_dispatch (s : Server) (hb : s.broken = []) (stop : StopSignal) (r : Request) :
    (s.answer stop r).server.table = (s.table.dispatch stop r).table ∧
      (s.answer stop r).stop = (s.table.dispatch stop r).stop ∧
      (s.answer stop r).fired = (s.table.dispatch stop r).fired ∧
      (s.answer stop r).server.connections = s.connections := by
  have hr : r.method ∉ s.broken := by simp [hb]
  cases he : encodeResponse (s.table.dispatch stop r).response with
  | ok written => simp only [answer, hr, if_false, he, and_self]
  | error fault => simp only [answer, hr, if_false, he, failed, and_self]

theorem answer_of_encoded {s : Server} (hb : s.broken = []) {stop : StopSignal} {r : Request}
    {written : Bytes} (he : encodeResponse (s.table.dispatch stop r).response = .ok written) :
    (s.answer stop r).written = written ∧
      (s.answer stop r).server.stats = counted s.stats (s.table.dispatch stop r).response := by
  have hr : r.method ∉ s.broken := by simp [hb]
  simp only [answer, hr, if_false, he, and_self]

/-- Nothing is written of an answer that is too large. -/
theorem written_of_too_large {s : Server} {stop : StopSignal} {r : Request} {fault : Fault}
    (he : encodeResponse (s.table.dispatch stop r).response = .error fault) :
    (s.answer stop r).written = [] := by
  by_cases hr : r.method ∈ s.broken
  · simp only [answer, hr, if_true]
  · simp only [answer, hr, if_false, he]

end Server

/-- A handler replies in its own method only, and turns away calls of another one. -/
theorem Handler.response_handle (h : Handler) (stop : StopSignal) (r : Request) :
    (∀ p, (h.handle stop r).response = .reply p → p.method = r.method) ∧
      ∀ m, (h.handle stop r).response = .unimplemented m → m = r.method := by
  by_cases hm : r.method = h.method
  · cases hv : (h.decide stop r).1 with
    | acknowledge => simp [handle, hm, hv, respond, Profile.method_reply, eq_comm]
    | withhold => simp [handle, hm, hv, respond]
  · simp [handle_of_method_ne hm, eq_comm]

namespace ServiceTable

/-- Every answer is of the method of its request. -/
theorem response_dispatch (t : ServiceTable) (stop : StopSignal) (r : Request) :
    (∀ p, (t.dispatch stop r).response = .reply p → p.method = r.method) ∧
      ∀ m, (t.dispatch stop r).response = .unimplemented m → m = r.method := by
  cases ht : t.get? r.method with
  | none => simp [dispatch_of_get?_eq_none ht, eq_comm]
  | some h =>
    simp only [dispatch, ht]
    exact h.response_handle stop r

end ServiceTable

namespace Call

/-- What a caller of `m` makes of a response. A reply too large for a frame is not written, so that
to the caller it has been withheld. -/
def resultOf (m : Method) : Response → Except CallFault Reply
  | .reply p => if Frame.Fits .serverFrame (.reply p) then .ok p else .error (.replyWithheld m)
  | .withhold => .error (.replyWithheld m)
  | .unimplemented _ => .error (.unimplemented m)

/-- The only success is the very reply, as long as it may be written. -/
theorem resultOf_eq_ok_iff {m : Method} {x : Response} {p : Reply} :
    resultOf m x = .ok p ↔ x = .reply p ∧ Frame.Fits .serverFrame (.reply p) := by
  constructor
  · intro h
    cases x with
    | reply q =>
      rw [resultOf] at h
      split at h
      · next hf =>
        cases h
        exact ⟨rfl, hf⟩
      · cases h
    | withhold | unimplemented _ => cases h
  · rintro ⟨rfl, hf⟩
    exact if_pos hf

/-- A call that is dispatched fails only for want of a reply or of a handler. -/
theorem resultOf_eq_error {m : Method} {x : Response} {fault : CallFault}
    (h : resultOf m x = .error fault) : fault = .replyWithheld m ∨ fault = .unimplemented m := by
  cases x with
  | reply q =>
    rw [resultOf] at h
    split at h
    · cases h
    · exact .inl (Except.error.inj h).symm
  | withhold => exact .inl (Except.error.inj h).symm
  | unimplemented _ => exact .inr (Except.error.inj h).symm

/-- A connection that closes without a byte withholds the reply. -/
theorem receive_of_nothing (m : Method) {ps : Pieces} (h : ps.flatten = []) :
    receive m ps = .error (.replyWithheld m) := by
  simp only [receive, readFrame_of_nil _ h]

/-- A frame with a reply of the right method is received as that reply. -/
theorem receive_of_reply {m : Method} {p : Reply} (hm : p.method = m)
    (hf : Frame.Fits .serverFrame (.reply p)) {ps : Pieces}
    (h : ps.flatten = Frame.bytes .serverFrame (.reply p)) : receive m ps = .ok p := by
  rw [← List.append_nil (Frame.bytes _ _)] at h
  obtain ⟨rest, hr, -⟩ := readFrame_bytes hf (serverFrame_readsBack_of_fits hf) h
  simp only [receive, hr, hm, if_true]

theorem unimplemented_fits (m : Method) : Frame.Fits .serverFrame (.unimplemented m) := by
  cases m <;> decide

/-- A refusal is reported with the method it names. -/
theorem receive_of_unimplemented (m served : Method) {ps : Pieces}
    (h : ps.flatten = Frame.bytes .serverFrame (.unimplemented served)) :
    receive m ps = .error (.unimplemented served) := by
  have hf := unimplemented_fits served
  rw [← List.append_nil (Frame.bytes _ _)] at h
  obtain ⟨rest, hr, -⟩ := readFrame_bytes hf (serverFrame_readsBack_of_fits hf) h
  simp only [receive, hr]

/-- Of a connection that is closed nothing more is waited for. -/
theorem await_of_closed (patience : Nat) (m : Method) (ps : Pieces) :
    await patience m ps true = (receive m ps, 0) := by
  cases hr : readFrame Layout.serverFrame ps <;> simp only [await, hr]

/-- The bytes that a server writes in answer to a request tell its caller the response. -/
theorem receive_answer (s : Server) (hb : s.broken = []) (stop : StopSignal) (r : Request)
    (ps : Pieces) (h : ps.flatten = (s.answer stop r).written) :
    receive r.method ps = resultOf r.method (s.table.dispatch stop r).response := by
  obtain ⟨hreply, hunimplemented⟩ := s.table.response_dispatch stop r
  cases hd : (s.table.dispatch stop r).response with
  | reply p =>
    by_cases hf : Frame.Fits .serverFrame (.reply p)
    · have he : Server.encodeResponse (s.table.dispatch stop r).response =
          .ok (Frame.bytes .serverFrame (.reply p)) := by
        rw [hd]
        exact Frame.encode_of_fits hf
      rw [(Server.answer_of_encoded hb he).1] at h
      rw [receive_of_reply (hreply p hd) hf h, resultOf, if_pos hf]
    · have he : Server.encodeResponse (s.table.dispatch stop r).response =
          .error (.tooLarge Frame.maxBody (Layout.serverFrame.write (.reply p)).length) := by
        rw [hd]
        exact if_neg hf
      rw [Server.written_of_too_large he] at h
      rw [receive_of_nothing _ h, resultOf, if_neg hf]
  | withhold =>
    have he : Server.encodeResponse (s.table.dispatch stop r).response = .ok [] := by rw [hd]; rfl
    rw [(Server.answer_of_encoded hb he).1] at h
    exact receive_of_nothing _ h
  | unimplemented m =>
    have he : Server.encodeResponse (s.table.dispatch stop r).response =
        .ok (Frame.bytes .serverFrame (.unimplemented m)) := by
      rw [hd]
      exact Frame.encode_of_fits (unimplemented_fits m)
    rw [(Server.answer_of_encoded hb he).1] at h
    rw [receive_of_unimplemented _ _ h, hunimplemented m hd, resultOf]

/-- A call over the wire: a connection is made, the request reaches the server on it, and what the
server writes there reaches the caller before the connection is closed. Gives what the server has
done and the result of the call. -/
def callOver (there back : Carrier) (patience : Nat) (s : Server) (stop : StopSignal) (r : Request) :
    Server.Outcome × Except CallFault Reply :=
  let served := s.accept.arriveAll stop s.connections.length (there.deliver (write r.frames).1)
  (served, (place patience r (.answers (back.deliver served.written) true)).result)

theorem framesBytes_frames_ne_nil (r : Request) : framesBytes r.frames ≠ [] := by
  intro h
  have hl := length_le_framesBytes r.frames
  rw [h] at hl
  cases r <;> simp [Request.frames] at hl

/-- The server's side of a call over the wire is one answer to the request. -/
theorem served_eq_answer (there : Carrier) (s : Server) (stop : StopSignal) (r : Request)
    (hr : r.Fits) :
    s.accept.arriveAll stop s.connections.length (there.deliver (framesBytes r.frames)) =
      { s.accept.answer stop r with
        server := (s.accept.answer stop r).server.setConnection s.connections.length
          ⟨there.deliver (framesBytes r.frames), (s.accept.answer stop r).written, false⟩ } := by
  have hflat := there.flatten_deliver (framesBytes r.frames)
  have hps : there.deliver (framesBytes r.frames) ≠ [] := by
    intro h
    rw [h] at hflat
    exact framesBytes_frames_ne_nil r hflat.symm
  have hc : s.accept.connections[s.connections.length]? = some {} := by simp
  exact Server.arriveAll_of_frames hr stop _ _ (there.ne_nil_of_mem_deliver _) hps s.accept {} hc
    rfl hflat

section

variable {m : Method} {result : Except CallFault Reply}

/-- The call of a single method succeeds with the identity in the reply of that method. -/
theorem acknowledgement_eq_ok_iff (hm : m ≠ .greet) (hr : ∀ p, result = .ok p → p.method = m)
    {identity : String} : acknowledgement m result = .ok identity ↔
      ∃ reply ∈ [Reply.heartbeat identity, .tell identity, .narrate identity],
        result = .ok reply := by
  cases result with
  | error fault => simp [acknowledgement]
  | ok p =>
    have hp := hr p rfl
    subst hp
    cases p with
    | greet g => exact absurd rfl hm
    | heartbeat other | tell other | narrate other => simp [acknowledgement, Reply.method]

/-- It passes a fault on, and adds none to a reply of its own method. -/
theorem acknowledgement_eq_error_iff (hm : m ≠ .greet) (hr : ∀ p, result = .ok p → p.method = m)
    {fault : CallFault} : acknowledgement m result = .error fault ↔ result = .error fault := by
  cases result with
  | error f => simp [acknowledgement]
  | ok p =>
    have hp := hr p rfl
    subst hp
    cases p <;> simp_all [acknowledgement, Reply.method]

theorem greeting_eq_ok_iff {g : Greeting} : greeting result = .ok g ↔ result = .ok (.greet g) := by
  cases result with
  | error fault => simp [greeting]
  | ok p => cases p <;> simp [greeting]

theorem greeting_eq_error_iff (hr : ∀ p, result = .ok p → p.method = .greet) {fault : CallFault} :
    greeting result = .error fault ↔ result = .error fault := by
  cases result with
  | error f => simp [greeting]
  | ok p =>
    have hp := hr p rfl
    cases p <;> simp_all [greeting, Reply.method]

end

/-- A call whose frames may be written does over the wire what the table does when it is handed the
request, once and with no other fault than that the table withheld its reply or has no handler. -/
theorem callOver_eq_dispatch (there back : Carrier) (patience : Nat) (s : Server)
    (hb : s.broken = []) (stop : StopSignal) (r : Request) (hr : r.Fits) :
    let done := s.table.dispatch stop r
    let called := callOver there back patience s stop r
    -- The server reads this very request and no byte after it.
    (∃ rest, CallReading.read (there.deliver (write r.frames).1) = .call r rest ∧
      rest.flatten = []) ∧
    -- It is dispatched once.
    called.1.server.table = done.table ∧ called.1.stop = done.stop ∧
    called.1.fired = done.fired ∧
    -- The answer is counted for what it is and closes the connection; the others are left alone.
    (∀ written, Server.encodeResponse done.response = .ok written → called.1.written = written ∧
      called.1.server.stats = Server.counted s.accept.stats done.response) ∧
    called.1.server.connections =
      s.connections ++ [⟨there.deliver (write r.frames).1, called.1.written, false⟩] ∧
    -- The caller is told the response.
    called.2 = resultOf r.method done.response ∧
    (∀ p, called.2 = .ok p ↔ done.response = .reply p ∧ Frame.Fits .serverFrame (.reply p)) ∧
    (∀ fault, called.2 = .error fault →
      fault = .replyWithheld r.method ∨ fault = .unimplemented r.method) ∧
    (∀ p, called.2 = .ok p → p.method = r.method) ∧
    -- The calls of a single method tell just this.
    (r.method ≠ .greet →
      (∀ identity, acknowledgement r.method called.2 = .ok identity ↔
        ∃ reply ∈ [Reply.heartbeat identity, .tell identity, .narrate identity],
          called.2 = .ok reply) ∧
      ∀ fault, acknowledgement r.method called.2 = .error fault ↔ called.2 = .error fault) ∧
    (r.method = .greet →
      (∀ g, greeting called.2 = .ok g ↔ called.2 = .ok (.greet g)) ∧
      ∀ fault, greeting called.2 = .error fault ↔ called.2 = .error fault) := by
  intro done called
  have hw : write r.frames = (framesBytes r.frames, none) := write_of_fits r.frames hr
  have hserved : called.1 = { s.accept.answer stop r with
      server := (s.accept.answer stop r).server.setConnection s.connections.length
        ⟨there.deliver (framesBytes r.frames), (s.accept.answer stop r).written, false⟩ } := by
    rw [← served_eq_answer there s stop r hr]
    simp only [called, callOver, hw]
  have hreceived : called.2 = receive r.method (back.deliver called.1.written) := by
    simp only [called, callOver, place, hw, await_of_closed]
  have hba : s.accept.broken = [] := hb
  obtain ⟨htable, hstop, hfired, hconnections⟩ := Server.answer_eq_dispatch s.accept hba stop r
  have hresult : called.2 = resultOf r.method done.response := by
    rw [hreceived, hserved]
    exact receive_answer s.accept hba stop r _ (back.flatten_deliver _)
  have hok (p : Reply) :
      called.2 = .ok p ↔ done.response = .reply p ∧ Frame.Fits .serverFrame (.reply p) := by
    rw [hresult, resultOf_eq_ok_iff]
  have hmethod : ∀ p, called.2 = .ok p → p.method = r.method := by
    intro p hp
    exact (s.table.response_dispatch stop r).1 p ((hok p).mp hp).1
  rw [hw]
  refine ⟨?_, ?_, ?_, ?_, ?_, ?_, hresult, hok, ?_, hmethod, fun hm => ?_, fun hm => ?_⟩
  · exact CallReading.read_of_frames r hr _ []
      (by rw [there.flatten_deliver, List.append_nil])
  · rw [hserved]
    exact htable
  · rw [hserved]
    exact hstop
  · rw [hserved]
    exact hfired
  · intro written he
    rw [hserved]
    exact Server.answer_of_encoded hba he
  · rw [hserved]
    simp only [Server.connections_setConnection, hconnections, Server.connections_accept]
    simp
  · intro fault hf
    exact resultOf_eq_error (hresult ▸ hf)
  · exact ⟨fun _ => acknowledgement_eq_ok_iff hm hmethod,
      fun _ => acknowledgement_eq_error_iff hm hmethod⟩
  · rw [hm] at hmethod
    exact ⟨fun _ => greeting_eq_ok_iff, fun _ => greeting_eq_error_iff hmethod⟩

/-- A server that answers a Narrate once. -/
def narrateOnce : Server where
  endpoint := ⟨"host", 1⟩
  table := .ofHandlers
    [{ method := .narrate, policy := .counting 1, profile := ⟨"me", "me", ⟨"host", 1⟩, 2⟩ }]

def twoItems : Request := .narrate [⟨"a", "b", ⟨1⟩, ⟨0⟩⟩, ⟨"a", "c", ⟨2⟩, ⟨0⟩⟩]

/-- Two items that arrive byte by byte are one call, acknowledged with the last reply. -/
theorem callOver_twoItems :
    let called := callOver .bytewise .whole 1000 narrateOnce {} twoItems
    narrateOnce.broken = [] ∧ twoItems.Fits ∧ called.2 = .ok (.narrate "me") ∧
    acknowledgement .narrate called.2 = .ok "me" := by
  intro called
  have hf : twoItems.Fits := by
    intro f hm
    simp only [twoItems, Request.frames, List.map_cons, List.map_nil, List.cons_append,
      List.nil_append, List.mem_cons, List.not_mem_nil, or_false] at hm
    rcases hm with rfl | rfl | rfl <;> decide +kernel
  have hp : Frame.Fits .serverFrame (.reply (.narrate "me")) := by decide +kernel
  obtain ⟨-, -, -, -, -, -, -, hok, -, -, hacknowledged, -⟩ :=
    callOver_eq_dispatch .bytewise .whole 1000 narrateOnce rfl {} twoItems hf
  have hcalled : called.2 = .ok (.narrate "me") := (hok _).mpr ⟨rfl, hp⟩
  refine ⟨rfl, hf, hcalled, ?_⟩
  exact ((hacknowledged (by decide)).1 "me").mpr ⟨.narrate "me", by simp, hcalled⟩

end Call
end ScriptedPeer
