import ScriptedPeer.Proofs.Call.Dispatch
import ScriptedPeer.Proofs.Call.Grammar
import ScriptedPeer.Proofs.Wire.Streaming

/-!
# Whatever arrives on a connection

Any bytes may arrive on a connection before it is closed. If the frames that can be decoded from
them begin with those of a request, that request is handed to the service table, once, and nothing
behind it matters. If they do not, the table is left alone, nothing is written, and the connection
counts as failed, unless it was closed before its first byte.
-/

namespace ScriptedPeer

open Wire

namespace Wire.Frame

variable {α : Type} {l : Layout α}

/-- What is decided about the front of some bytes is not changed by bytes that follow. -/
theorem decode_append_of_decided {bs : Bytes} (h : ∀ e a, decode l bs ≠ .error (.truncated e a))
    (more : Bytes) : decode l (bs ++ more) = decode l bs := by
  by_cases h4 : bs.length < headerSize
  · exact absurd (decode_of_short h4) (h _ _)
  obtain ⟨head, body, rfl, hl⟩ := exists_header (Nat.le_of_not_lt h4)
  rw [decode_append hl] at h
  rw [List.append_assoc, decode_append hl, decode_append hl]
  cases hn : bodyLength head with
  | error fault => rfl
  | ok n =>
    cases hs : split? n body with
    | none => simp [hn, hs] at h
    | some p =>
      obtain ⟨rfl, rfl⟩ := split?_eq_some hs
      simp only [List.append_assoc, split?_append]

end Wire.Frame

/-- The frames at the front of some bytes, as they are decoded one after the other. -/
def framesOf (bs : Bytes) : List ClientFrame := (Frame.decodeStream .clientFrame bs).1.map Prod.fst

theorem framesOf_of_ok {bs : Bytes} {f : ClientFrame} {used : Nat}
    (h : Frame.decode .clientFrame bs = .ok (f, used)) :
    framesOf bs = f :: framesOf (bs.drop used) := by
  rw [framesOf, Frame.decodeStream_of_ok h, List.map_cons, framesOf]

theorem framesOf_of_error {bs : Bytes} {fault : Fault}
    (h : Frame.decode .clientFrame bs = .error fault) : framesOf bs = [] := by
  by_cases hb : bs = []
  · rw [hb]
    rfl
  · rw [framesOf, Frame.decodeStream_of_error hb h, List.map_nil]

/-- Frames in front of some bytes are read off before any of those. -/
theorem framesOf_append {fs : List ClientFrame} (hf : ∀ f ∈ fs, Frame.Fits .clientFrame f)
    (more : Bytes) : framesOf (framesBytes fs ++ more) = fs ++ framesOf more := by
  rw [framesOf, framesBytes,
    Frame.decodeStream_append hf (fun f hm => clientFrame_readsBack_of_fits (hf f hm))]
  simp only [List.map_append, List.map_map, framesOf]
  congr 1
  exact List.map_id fs

/-- Bytes that follow take no frame away. -/
theorem framesOf_prefix_append (bs more : Bytes) : framesOf bs <+: framesOf (bs ++ more) := by
  induction hn : bs.length using Nat.strongRecOn generalizing bs with
  | ind n ih =>
    cases hd : Frame.decode .clientFrame bs with
    | error fault =>
      rw [framesOf_of_error hd]
      exact List.nil_prefix
    | ok p =>
      obtain ⟨f, used⟩ := p
      have hd' : Frame.decode .clientFrame (bs ++ more) = .ok (f, used) := by
        rw [Frame.decode_append_of_decided (by simp [hd]), hd]
      have hu : used ≤ bs.length := by
        rw [← List.flatten_singleton (l := bs)] at hd ⊢
        exact (readFrame_of_decoded hd).1
      rw [framesOf_of_ok hd, framesOf_of_ok hd', List.drop_append_of_le_length hu,
        List.prefix_cons_inj]
      have h4 := Frame.headerSize_le_of_decode hd
      exact ih _ (by rw [← hn, List.length_drop]; simp only [Frame.headerSize] at h4; omega) _ rfl

/-- The first frame of the bytes is read, and the others are left. -/
theorem exists_readFrame {ps : Pieces} {f : ClientFrame} {fs : List ClientFrame}
    (h : framesOf ps.flatten = f :: fs) : ∃ rest, readFrame .clientFrame ps = .frame f rest ∧
      framesOf rest.flatten = fs ∧ rest.size < ps.size := by
  cases hd : Frame.decode .clientFrame ps.flatten with
  | error fault =>
    rw [framesOf_of_error hd] at h
    cases h
  | ok p =>
    obtain ⟨hused, rest, hr, hrest⟩ := readFrame_of_decoded hd
    rw [framesOf_of_ok hd, ← hrest] at h
    obtain ⟨rfl, rfl⟩ := List.cons.inj h
    exact ⟨rest, hr, rfl, size_lt_of_readFrame hr⟩

/-- Without a frame in front there is nothing, or a part of a frame, or a fault. -/
theorem readFrame_of_none {ps : Pieces} (h : framesOf ps.flatten = []) :
    ps.flatten = [] ∧ readFrame .clientFrame ps = .nothing ∨
    ps.flatten ≠ [] ∧ (readFrame .clientFrame ps = .part ∨
      ∃ fault, readFrame .clientFrame ps = .refused fault) := by
  cases agreement .clientFrame ps with
  | frame f used rest hused hrest hd hr =>
    rw [framesOf_of_ok hd] at h
    cases h
  | nothing h0 hr => exact .inl ⟨h0, hr⟩
  | part expected h0 hd hr => exact .inr ⟨h0, .inl hr⟩
  | refused fault hf hd hr =>
    refine .inr ⟨?_, .inr ⟨fault, hr⟩⟩
    intro h0
    rw [readFrame_of_nil _ h0] at hr
    cases hr

/-- More bytes behind a frame that has been read, or refused, change nothing of it. -/
theorem readFrame_of_longer {ps longer : Pieces} {more : Bytes}
    (h : longer.flatten = ps.flatten ++ more) :
    (∀ f rest, readFrame .clientFrame ps = .frame f rest →
      ∃ rest', readFrame .clientFrame longer = .frame f rest' ∧
        rest'.flatten = rest.flatten ++ more) ∧
    ∀ fault, readFrame .clientFrame ps = .refused fault →
      readFrame .clientFrame longer = .refused fault := by
  cases agreement .clientFrame ps with
  | frame f used rest hused hrest hd hr =>
    have hd' : Frame.decode .clientFrame longer.flatten = .ok (f, used) := by
      rw [h, Frame.decode_append_of_decided (by simp [hd]), hd]
    obtain ⟨-, rest', hr', hrest'⟩ := readFrame_of_decoded hd'
    constructor
    · intro g rest₀ hg
      cases hr.symm.trans hg
      refine ⟨rest', hr', ?_⟩
      rw [hrest', h, List.drop_append_of_le_length hused, hrest]
    · intro fault hf
      cases hr.symm.trans hf
  | nothing h0 hr => simp [hr]
  | part expected h0 hd hr => simp [hr]
  | refused fault hf hd hr =>
    have hd' : Frame.decode .clientFrame longer.flatten = .error fault := by
      rw [h, Frame.decode_append_of_decided, hd]
      intro e a he
      cases hd.symm.trans he
      cases hf
    constructor
    · intro g rest hg
      cases hr.symm.trans hg
    · intro fault' hf'
      cases hr.symm.trans hf'
      exact readFrame_of_final hf hd'

namespace CallReading

/-- What has been read, if no more bytes can change it. -/
def decided? : CallReading → Option (Except CallFault Request)
  | call r _ => some (.ok r)
  | refused fault => some (.error fault)
  | nothing | part | unclosed => none

/-- What has been decided of a stream stays so, whatever follows. -/
theorem items_of_longer {count count' : Nat} {before : List Item} {ps longer : Pieces}
    {more : Bytes} (h : longer.flatten = ps.flatten ++ more) (hc : longer.size < count')
    {v : Except CallFault Request} (hv : (items count before ps).decided? = some v) :
    (items count' before longer).decided? = some v := by
  induction count generalizing count' before ps longer with
  | zero => cases hv
  | succ count ih =>
    obtain ⟨count', rfl⟩ := Nat.exists_eq_succ_of_ne_zero (Nat.ne_of_gt (Nat.zero_lt_of_lt hc))
    obtain ⟨hframe, hrefused⟩ := readFrame_of_longer h
    cases hr : readFrame .clientFrame ps with
    | nothing => simp [items, hr, decided?] at hv
    | part => simp [items, hr, decided?] at hv
    | refused fault => simpa [items, hr, hrefused fault hr] using hv
    | frame f rest =>
      obtain ⟨rest', hr', hrest⟩ := hframe f rest hr
      cases f with
      | chunk i =>
        simp only [items, hr, hr'] at hv ⊢
        exact ih hrest (Nat.lt_of_lt_of_le (size_lt_of_readFrame hr') (Nat.le_of_lt_succ hc)) hv
      | finish | heartbeat _ | greet _ | tell _ => simpa [items, hr, hr', decided?] using hv

/-- Bytes that follow change nothing of what has been decided. -/
theorem decided?_of_longer {ps longer : Pieces} {more : Bytes}
    (h : longer.flatten = ps.flatten ++ more) {v : Except CallFault Request}
    (hv : (read ps).decided? = some v) : (read longer).decided? = some v := by
  obtain ⟨hframe, hrefused⟩ := readFrame_of_longer h
  cases hr : readFrame .clientFrame ps with
  | nothing => simp [read, hr, decided?] at hv
  | part => simp [read, hr, decided?] at hv
  | refused fault => simpa [read, hr, hrefused fault hr] using hv
  | frame f rest =>
    obtain ⟨rest', hr', hrest⟩ := hframe f rest hr
    cases f with
    | chunk i =>
      simp only [read, hr, hr'] at hv ⊢
      exact items_of_longer hrest (Nat.lt_succ_self _) hv
    | finish | heartbeat _ | greet _ | tell _ => simpa [read, hr, hr', decided?] using hv

theorem isOpen_eq (x : CallReading) : x.isOpen = x.decided?.isNone := by cases x <;> rfl

/-- The items of a stream are read up to the first frame that is no item. -/
theorem items_of_framesOf {is : List Item} {tail : List ClientFrame} {count : Nat}
    (before : List Item) {ps : Pieces} (h : framesOf ps.flatten = is.map .chunk ++ tail)
    (hc : ps.size < count) : ∃ count' rest,
      items count before ps = items (count' + 1) (is.reverse ++ before) rest ∧
        framesOf rest.flatten = tail := by
  obtain ⟨count, rfl⟩ := Nat.exists_eq_succ_of_ne_zero (Nat.ne_of_gt (Nat.zero_lt_of_lt hc))
  induction is generalizing count before ps with
  | nil => exact ⟨count, ps, rfl, h⟩
  | cons i is ih =>
    obtain ⟨rest, hr, hfs, hlt⟩ := exists_readFrame h
    obtain ⟨count, rfl⟩ := Nat.exists_eq_succ_of_ne_zero
      (Nat.ne_of_gt (Nat.lt_of_lt_of_le (Nat.zero_lt_of_lt hlt) (Nat.le_of_lt_succ hc)))
    obtain ⟨count', rest', hitems, hrest⟩ := ih (i :: before) hfs count (by omega)
    refine ⟨count', rest', ?_, hrest⟩
    rw [items, hr]
    simp only [hitems, List.reverse_cons, List.append_assoc, List.singleton_append]

/-- The items of a stream are read before what comes behind them. -/
theorem read_of_items {is : List Item} (hn : is ≠ []) {tail : List ClientFrame} {ps : Pieces}
    (h : framesOf ps.flatten = is.map .chunk ++ tail) :
    ∃ count rest, read ps = items (count + 1) is.reverse rest ∧ framesOf rest.flatten = tail := by
  obtain ⟨i, is, rfl⟩ := List.exists_cons_of_ne_nil hn
  obtain ⟨rest, hr, hfs, -⟩ := exists_readFrame h
  obtain ⟨count, rest', hitems, hrest⟩ :=
    items_of_framesOf [i] hfs (Nat.lt_succ_self rest.size)
  refine ⟨count, rest', ?_, hrest⟩
  simp only [read, hr, hitems, List.reverse_cons]

/-- A request is read as soon as its frames stand in front. -/
theorem read_of_request {r : Request} {ps : Pieces} (h : r.frames <+: framesOf ps.flatten) :
    ∃ rest, read ps = .call r rest := by
  obtain ⟨left, h⟩ := h
  cases r with
  | heartbeat _ | greet _ | tell _ =>
    obtain ⟨rest, hr, -⟩ := exists_readFrame h.symm
    exact ⟨rest, by simp only [read, hr]⟩
  | narrate is =>
    by_cases hn : is = []
    · subst hn
      obtain ⟨rest, hr, -⟩ := exists_readFrame h.symm
      exact ⟨rest, by simp only [read, hr]⟩
    · rw [Request.frames, List.append_assoc] at h
      obtain ⟨count, rest, hread, hrest⟩ := read_of_items hn h.symm
      obtain ⟨rest', hr, -⟩ := exists_readFrame hrest
      exact ⟨rest', by simp only [hread, items, hr, List.reverse_reverse]⟩

/-- Some frames begin with the frames of one request at most. -/
theorem request_unique {q r : Request} {ps : Pieces} (hq : q.frames <+: framesOf ps.flatten)
    (hr : r.frames <+: framesOf ps.flatten) : q = r := by
  obtain ⟨_, hq⟩ := read_of_request hq
  obtain ⟨_, hr⟩ := read_of_request hr
  exact (CallReading.call.inj (hq.symm.trans hr)).1

/-- Bytes that do not begin with a request are none at all, or a fault when they end. -/
theorem atEnd_of_no_request {ps : Pieces} (h : ∀ r : Request, ¬r.frames <+: framesOf ps.flatten) :
    ps.flatten = [] ∧ (read ps).atEnd = .ok none ∨
      ps.flatten ≠ [] ∧ ∃ fault, (read ps).atEnd = .error fault := by
  have hne : framesOf ps.flatten ≠ [] → ps.flatten ≠ [] := by
    intro hf h0
    rw [h0] at hf
    exact hf rfl
  generalize hfs : framesOf ps.flatten = fs at h hne
  cases callShape fs with
  | nothing =>
    rcases readFrame_of_none hfs with ⟨h0, -⟩ | ⟨h0, hr | ⟨fault, hr⟩⟩
    · exact .inl ⟨h0, atEnd_of_nothing h0⟩
    · exact .inr ⟨h0, .earlyEnd, atEnd_read_of_fault (by rw [hr, Reading.atEnd])⟩
    · exact .inr ⟨h0, .wire fault, atEnd_read_of_fault (by rw [hr, Reading.atEnd])⟩
  | call r left => exact absurd (List.prefix_append ..) (h r)
  | unclosed is hn =>
    right
    refine ⟨hne (by simpa using hn), ?_⟩
    rw [← List.append_nil (is.map _)] at hfs
    obtain ⟨count, rest, hread, hrest⟩ := read_of_items hn hfs
    rcases readFrame_of_none hrest with ⟨-, hr⟩ | ⟨-, hr | ⟨fault, hr⟩⟩
    · exact ⟨missingEnd, by simp only [hread, items, hr, atEnd]⟩
    · exact ⟨.earlyEnd, by simp only [hread, items, hr, atEnd]⟩
    · exact ⟨.wire fault, by simp only [hread, items, hr, atEnd]⟩
  | interrupted is hn f more hf =>
    right
    refine ⟨hne (by simp), unexpectedFrame f, ?_⟩
    obtain ⟨count, rest, hread, hrest⟩ := read_of_items hn hfs
    obtain ⟨rest', hr, -⟩ := exists_readFrame hrest
    rw [hread]
    cases f with
    | heartbeat _ | greet _ | tell _ => simp only [items, hr, atEnd]
    | chunk _ | finish => exact absurd rfl hf

end CallReading

namespace Server

open CallReading

variable (s : Server) (stop : StopSignal)

/-- Pieces arrive on connection `n` one after the other, and then its other end closes. -/
def arriveToEnd (n : Nat) (ps : Pieces) : Outcome :=
  let arrived := s.arriveAll stop n ps
  let ended := arrived.server.arrive arrived.stop n [] true
  { ended with written := arrived.written ++ ended.written, fired := arrived.fired || ended.fired }

variable {s stop} {n : Nat} {c : Connection}

@[simp] theorem setConnection_setConnection (c' : Connection) :
    (s.setConnection n c).setConnection n c' = s.setConnection n c' := by
  simp only [setConnection, List.set_set]

theorem connections_answer (r : Request) :
    (s.answer stop r).server.connections = s.connections := by
  unfold answer
  split
  · rfl
  · dsimp only
    split <;> rfl

theorem connections_conclude (reading : CallReading) :
    (s.conclude stop reading).server.connections = s.connections := by
  unfold conclude
  split
  · exact connections_answer _
  · rfl
  · rfl

theorem conclude_setConnection (reading : CallReading) :
    (s.setConnection n c).conclude stop reading =
      { s.conclude stop reading with
        server := (s.conclude stop reading).server.setConnection n c } := by
  cases hr : reading.atEnd with
  | error fault => simp only [conclude, hr, failed, setConnection]
  | ok found =>
    cases found with
    | none => simp only [conclude, hr]
    | some call => simp only [conclude, hr, answer_setConnection]

/-- With a request in front it is that request that is answered. -/
theorem conclude_of_request {r : Request} {ps : Pieces} (h : r.frames <+: framesOf ps.flatten) :
    s.conclude stop (read ps) = s.answer stop r := by
  obtain ⟨rest, hr⟩ := read_of_request h
  simp only [conclude, hr, atEnd]

/-- Without one the connection has failed, if there was a byte on it. -/
theorem conclude_of_no_request {ps : Pieces}
    (h : ∀ r : Request, ¬r.frames <+: framesOf ps.flatten) :
    s.conclude stop (read ps) = { server := if ps.flatten = [] then s else s.failed, stop } := by
  rcases atEnd_of_no_request h with ⟨h0, hr⟩ | ⟨h0, fault, hr⟩
  · simp only [conclude, hr, if_pos h0]
  · simp only [conclude, hr, if_neg h0]

/-- Only the bytes count, not how they arrived. -/
theorem conclude_of_flatten_eq {ps qs : Pieces} (h : ps.flatten = qs.flatten) :
    s.conclude stop (read ps) = s.conclude stop (read qs) := by
  by_cases hps : ∃ r : Request, r.frames <+: framesOf ps.flatten
  · obtain ⟨r, hr⟩ := hps
    rw [conclude_of_request hr, conclude_of_request (h ▸ hr)]
  · have hno := not_exists.mp hps
    rw [conclude_of_no_request hno, conclude_of_no_request (h ▸ hno), h]

/-- Of what is decided already, bytes that follow change nothing. -/
theorem conclude_of_longer {ps longer : Pieces} {more : Bytes}
    (h : longer.flatten = ps.flatten ++ more) (ho : (read ps).isOpen = false) :
    s.conclude stop (read longer) = s.conclude stop (read ps) := by
  obtain ⟨v, hv⟩ : ∃ v, (read ps).decided? = some v := by
    rwa [isOpen_eq, Option.isNone_eq_false_iff, Option.isSome_iff_exists] at ho
  have hv' := decided?_of_longer h hv
  have hatEnd : ∀ {x : CallReading}, x.decided? = some v → s.conclude stop x =
      match v with | .ok r => s.answer stop r | .error _ => { server := s.failed, stop } := by
    intro x hx
    cases x with
    | call _ _ | refused _ =>
      cases Option.some.inj hx
      rfl
    | nothing | part | unclosed => cases hx
  rw [hatEnd hv, hatEnd hv']

theorem arriveToEnd_cons (piece : Bytes) (rest : Pieces) :
    s.arriveToEnd stop n (piece :: rest) =
      let now := s.arrive stop n piece false
      let later := now.server.arriveToEnd now.stop n rest
      { later with
        written := now.written ++ later.written, fired := now.fired || later.fired } := by
  simp only [arriveToEnd, arriveAll, List.append_assoc, Bool.or_assoc]

theorem arrive_of_closed (hc : s.connections[n]? = some c) (ho : c.isOpen = false) (piece : Bytes)
    (closed : Bool) : s.arrive stop n piece closed = { server := s, stop } := by
  simp only [arrive, hc, ho, Bool.not_false, if_true]

theorem arriveToEnd_of_closed (hc : s.connections[n]? = some c) (ho : c.isOpen = false)
    (ps : Pieces) : s.arriveToEnd stop n ps = { server := s, stop } := by
  induction ps with
  | nil =>
    simp only [arriveToEnd, arriveAll, arrive_of_closed hc ho, List.append_nil, Bool.or_false]
  | cons piece rest ih =>
    simp only [arriveToEnd_cons, arrive_of_closed hc ho, ih, List.append_nil, Bool.or_false]

/-- A call that is complete, or has come to its end, is concluded and its connection closed. -/
theorem arrive_of_concluded (hc : s.connections[n]? = some c) (ho : c.isOpen = true) {piece : Bytes}
    {closed : Bool} (h : (read (c.arrived ++ [piece])).isOpen = false ∨ closed = true) :
    s.arrive stop n piece closed =
      let done := s.conclude stop (read (c.arrived ++ [piece]))
      { done with
        server := done.server.setConnection n ⟨c.arrived ++ [piece], done.written, false⟩ } := by
  rcases h with h | h <;> simp [arrive, hc, ho, h]

/-- However the bytes are divided, a connection comes to what all of them come to. -/
theorem arriveToEnd_of_open (ps : Pieces) (hc : s.connections[n]? = some c) (ho : c.isOpen = true) :
    ∃ arrived, s.arriveToEnd stop n ps =
      let done := s.conclude stop (read (c.arrived ++ ps))
      { done with server := done.server.setConnection n ⟨arrived, done.written, false⟩ } := by
  induction ps generalizing s c with
  | nil =>
    refine ⟨c.arrived ++ [[]], ?_⟩
    rw [arriveToEnd]
    simp only [arriveAll, arrive_of_concluded hc ho (.inr rfl), List.nil_append, Bool.false_or]
    have hsame : (c.arrived ++ [[]]).flatten = (c.arrived ++ []).flatten := by simp
    rw [conclude_of_flatten_eq hsame]
  | cons piece rest ih =>
    rw [arriveToEnd_cons]
    have hlt : n < s.connections.length := (List.getElem?_eq_some_iff.mp hc).1
    cases hr : (read (c.arrived ++ [piece])).isOpen with
    | true =>
      have hc' : (s.setConnection n { c with arrived := c.arrived ++ [piece] }).connections[n]? =
          some { c with arrived := c.arrived ++ [piece] } := by simp [hlt]
      obtain ⟨arrived, h⟩ := ih hc' ho
      refine ⟨arrived, ?_⟩
      simp only [arrive_of_open hc ho hr, h, conclude_setConnection, setConnection_setConnection,
        List.append_assoc, List.singleton_append, List.nil_append, Bool.false_or]
    | false =>
      refine ⟨c.arrived ++ [piece], ?_⟩
      have hmore : s.conclude stop (read (c.arrived ++ piece :: rest)) =
          s.conclude stop (read (c.arrived ++ [piece])) :=
        conclude_of_longer (show _ = (c.arrived ++ [piece]).flatten ++ rest.flatten by simp) hr
      simp only [arrive_of_concluded hc ho (.inl hr), hmore]
      rw [arriveToEnd_of_closed (c := ⟨c.arrived ++ [piece], _, false⟩)
        (by simp [connections_conclude, hlt]; rfl) rfl]
      simp only [List.append_nil, Bool.or_false]

/-- A new connection is concluded with all that has arrived on it, and closed. -/
theorem arriveToEnd_of_accepted (s : Server) (stop : StopSignal) (ps : Pieces) :
    ∃ arrived, s.accept.arriveToEnd stop s.connections.length ps =
      let done := s.accept.conclude stop (read ps)
      { done with
        server :=
          { done.server with
            connections := s.connections ++ [⟨arrived, done.written, false⟩] } } := by
  have hc : s.accept.connections[s.connections.length]? = some {} := by simp
  obtain ⟨arrived, h⟩ : ∃ arrived, s.accept.arriveToEnd stop _ ps = _ :=
    arriveToEnd_of_open ps hc rfl
  refine ⟨arrived, ?_⟩
  rw [h]
  simp [setConnection, connections_conclude]

/-- A handling that breaks down leaves nothing behind. -/
theorem answer_of_broken {r : Request} (hr : r.method ∈ s.broken) :
    s.answer stop r = { server := s, stop } := by
  simp only [answer, hr, if_true]

theorem answer_of_written {r : Request} (hr : r.method ∉ s.broken) {written : Bytes}
    (he : encodeResponse (s.table.dispatch stop r).response = .ok written) :
    s.answer stop r =
      let done := s.table.dispatch stop r
      { server := { s with table := done.table, stats := counted s.stats done.response }
        stop := done.stop, written, fired := done.fired } := by
  simp only [answer, hr, if_false, he]

/-- An answer that cannot be written counts as a failure, though the call has been handled. -/
theorem answer_of_unwritten {r : Request} (hr : r.method ∉ s.broken) {fault : Fault}
    (he : encodeResponse (s.table.dispatch stop r).response = .error fault) :
    s.answer stop r =
      let done := s.table.dispatch stop r
      { server := { s with table := done.table }.failed
        stop := done.stop, fired := done.fired } := by
  simp only [answer, hr, if_false, he]

/-- An answer is written as one frame, if it is written. -/
theorem encodeResponse_eq_frame {response : Response} {written : Bytes}
    (h : encodeResponse response = .ok written) :
    written = [] ∨ ∃ f, Frame.encode .serverFrame f = .ok written := by
  cases response with
  | reply r => exact .inr ⟨.reply r, h⟩
  | unimplemented m => exact .inr ⟨.unimplemented m, h⟩
  | withhold => exact .inl (Except.ok.inj h).symm

/-- One frame is written at most. -/
theorem written_answer (r : Request) : (s.answer stop r).written = [] ∨
    ∃ f, Frame.encode .serverFrame f = .ok (s.answer stop r).written := by
  by_cases hr : r.method ∈ s.broken
  · rw [answer_of_broken hr]
    exact .inl rfl
  · cases he : encodeResponse (s.table.dispatch stop r).response with
    | ok written =>
      rw [answer_of_written hr he]
      exact encodeResponse_eq_frame he
    | error fault =>
      rw [answer_of_unwritten hr he]
      exact .inl rfl

theorem written_conclude (reading : CallReading) : (s.conclude stop reading).written = [] ∨
    ∃ f, Frame.encode .serverFrame f = .ok (s.conclude stop reading).written := by
  unfold conclude
  split
  · exact written_answer _
  · exact .inl rfl
  · exact .inl rfl

/-- Whatever bytes arrive on a new connection before it is closed, and however they are divided: if
their frames begin with those of a request, it is answered, once, and nothing behind it matters.
Otherwise nothing is done but to count. -/
theorem arriveToEnd_of_bytes (s : Server) (stop : StopSignal) (ps : Pieces) :
    let done := s.accept.arriveToEnd stop s.connections.length ps
    let accepted := { s.stats with connections := s.stats.connections + 1 }
    ∃ arrived,
    (done.written = [] ∨ ∃ f, Frame.encode .serverFrame f = .ok done.written) ∧
    (∀ r : Request, r.frames <+: framesOf ps.flatten →
      (∀ q : Request, q.frames <+: framesOf ps.flatten → q = r) ∧
      (r.method ∉ s.broken →
        let handled := s.table.dispatch stop r
        (∀ written, encodeResponse handled.response = .ok written → done =
          { server :=
              { s with
                table := handled.table
                stats := counted accepted handled.response
                connections := s.connections ++ [⟨arrived, written, false⟩] }
            stop := handled.stop, written, fired := handled.fired }) ∧
        ∀ fault, encodeResponse handled.response = .error fault → done =
          { server :=
              { s with
                table := handled.table
                stats := { accepted with failed := s.stats.failed + 1 }
                connections := s.connections ++ [⟨arrived, [], false⟩] }
            stop := handled.stop, fired := handled.fired }) ∧
      (r.method ∈ s.broken → done =
        { server :=
            { s with stats := accepted, connections := s.connections ++ [⟨arrived, [], false⟩] }
          stop }) ∧
      -- What follows the request is ignored: with any bytes behind it all would have been the same.
      (∀ more, r.frames <+: framesOf (ps.flatten ++ more)) ∧
      ∀ other : Pieces, r.frames <+: framesOf other.flatten →
        let done' := s.accept.arriveToEnd stop s.connections.length other
        ∃ arrived', done' =
          { done with
            server :=
              { done.server with
                connections := s.connections ++ [⟨arrived', done.written, false⟩] } }) ∧
    ((∀ r : Request, ¬r.frames <+: framesOf ps.flatten) → done =
      { server :=
          { s with
            stats :=
              if ps.flatten = [] then accepted
              else { accepted with failed := s.stats.failed + 1 }
            connections := s.connections ++ [⟨arrived, [], false⟩] }
        stop }) := by
  intro done accepted
  obtain ⟨arrived, hdone⟩ := s.arriveToEnd_of_accepted stop ps
  refine ⟨arrived, ?_, ?_, ?_⟩
  · simp only [done, hdone]
    exact written_conclude _
  · intro r hr
    simp only [conclude_of_request hr] at hdone
    refine ⟨fun q hq => request_unique hq hr, fun hh => ⟨?_, ?_⟩, ?_,
      fun more => hr.trans (framesOf_prefix_append _ more), ?_⟩
    · intro written he
      simp only [done, hdone, answer_of_written (s := s.accept) hh he]
      rfl
    · intro fault he
      simp only [done, hdone, answer_of_unwritten (s := s.accept) hh he]
      rfl
    · intro hb
      simp only [done, hdone, answer_of_broken (s := s.accept) hb]
      rfl
    · intro other ho
      obtain ⟨arrived', hother⟩ := s.arriveToEnd_of_accepted stop other
      refine ⟨arrived', ?_⟩
      simp only [done, hother, hdone, conclude_of_request ho]
  · intro hno
    simp only [done, hdone, conclude_of_no_request hno]
    split <;> rfl

/-- The closing frame of an empty stream and a byte behind it. -/
def followedClosing : Pieces := [framesBytes [.finish], [9]]

/-- What follows an empty stream is ignored; half a header is a connection that has failed. -/
theorem arriveToEnd_followedClosing :
    (Request.narrate []).frames <+: framesOf followedClosing.flatten ∧
    (Call.narrateOnce.accept.arriveToEnd {} 0 followedClosing).server.stats =
      { connections := 1, replied := 1 } ∧
    (∀ r : Request, ¬r.frames <+: framesOf [[0], [0]].flatten) ∧
    (Call.narrateOnce.accept.arriveToEnd {} 0 [[0], [0]]).server.stats =
      { connections := 1, failed := 1 } := by
  have hclosing : (Request.narrate []).frames <+: framesOf followedClosing.flatten := by
    rw [followedClosing, List.flatten_cons, framesOf_append (by decide)]
    exact List.prefix_append _ _
  have hnone : ∀ r : Request, ¬r.frames <+: framesOf [[0], [0]].flatten := by
    intro r hr
    rw [framesOf_of_error (Frame.decode_of_short (by decide)), List.prefix_nil] at hr
    cases r <;> simp [Request.frames] at hr
  obtain ⟨_, -, hserved, -⟩ := arriveToEnd_of_bytes Call.narrateOnce {} followedClosing
  obtain ⟨_, -, -, htorn⟩ := arriveToEnd_of_bytes Call.narrateOnce {} [[0], [0]]
  obtain ⟨-, hhandled, -⟩ := hserved _ hclosing
  have hfits : Frame.Fits .serverFrame (.reply (.narrate "me")) := by decide +kernel
  have hreply := (hhandled (by decide)).1 _ (Frame.encode_of_fits hfits)
  exact ⟨hclosing, congrArg (·.server.stats) hreply, hnone, congrArg (·.server.stats) (htorn hnone)⟩

end Server

end ScriptedPeer
