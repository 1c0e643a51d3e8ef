import ScriptedPeer.Proofs.Serving.Outcomes

/-!
# Every visit is counted once

However many visitors there are, and in whatever order the server comes to them, its counts are
those of the outcomes of its visits. A visit comes to its outcome with the event that closes its
connection, and this one event counts it, once or not at all.
-/

namespace ScriptedPeer

open Wire

namespace CallReading

theorem eq_call_of_atEnd {x : CallReading} {call : Request × Pieces}
    (h : x.atEnd = .ok (some call)) : x = .call call.1 call.2 := by
  cases x <;> cases h
  rfl

theorem eq_nothing_of_atEnd {x : CallReading} (h : x.atEnd = .ok none) : x = .nothing := by
  cases x <;> cases h
  rfl

theorem items_ne_nothing (count : Nat) (before : List Item) (ps : Pieces) :
    (items count before ps).atEnd ≠ .ok none := by
  induction count generalizing before ps with
  | zero =>
    intro h
    cases h
  | succ count ih =>
    simp only [items]
    split
    · exact ih _ _
    all_goals
      intro h
      cases h

/-- Only where nothing has arrived at all there is neither a call nor a fault. -/
theorem flatten_of_atEnd {ps : Pieces} (h : (read ps).atEnd = .ok none) : ps.flatten = [] := by
  cases agreement .clientFrame ps with
  | nothing h0 _ => exact h0
  | part _ _ _ hr | refused _ _ _ hr =>
    simp only [read, hr, atEnd] at h
    cases h
  | frame f _ rest _ _ _ hr =>
    cases f with
    | chunk i =>
      simp only [read, hr] at h
      exact absurd h (items_ne_nothing _ _ _)
    | heartbeat _ | greet _ | tell _ | finish =>
      simp only [read, hr, atEnd] at h
      cases h

end CallReading

/-- The handler of the call that has arrived breaks down. -/
def Visit.breaks (broken : List Method) (v : Visit) : Bool :=
  match v.stage, CallReading.read v.arrived with
  | .reading, .call r _ => r.method ∈ broken
  | _, _ => false

/-- Only a complete call breaks its handling down. -/
theorem Visit.exists_call_of_breaks {broken : List Method} {v : Visit}
    (h : v.breaks broken = true) :
    v.stage = .reading ∧
      ∃ r rest, CallReading.read v.arrived = .call r rest ∧ r.method ∈ broken := by
  unfold Visit.breaks at h
  split at h
  · next r rest hs hr => exact ⟨hs, r, rest, hr, of_decide_eq_true h⟩
  · cases h

/-- What arrives behind a call is left unread. -/
theorem Visit.Ongoing.arrive {v : Visit} (h : v.Ongoing) (bytes : Bytes) :
    (v.arrive bytes).Ongoing := by
  refine ⟨(v.isOpen_arrive bytes).trans h.isOpen, h.faithful.arrive bytes, fun hs => ?_⟩
  unfold Visit.arrive at hs ⊢
  split
  · next hand =>
    rw [if_pos hand] at hs
    exact absurd hand.1 hs
  · next hnot =>
    rw [if_neg hnot] at hs
    exact h.called hs

/-- The other end may close without the visit coming to its outcome. -/
theorem Visit.Ongoing.close {v : Visit} (h : v.Ongoing) : v.close.Ongoing := by
  refine ⟨v.isOpen_close.trans h.isOpen, h.faithful.close, fun hs => ?_⟩
  unfold Visit.close at hs ⊢
  rw [if_pos h.isOpen] at hs ⊢
  exact h.called hs

namespace Reception

/-- A step of a server some of whose handlers break down. The connection of such a call is closed,
and nothing is counted. -/
def stepAmid (broken : List Method) (w : Reception) : ReceptionEvent → Reception
  | .read n => w.onVisit n fun v =>
    if v.breaks broken then w.finish n v none w.stats else w.read n
  | e => w.step e

/-- The reception after the first `k` events of a schedule. -/
def serve (w : Reception) (broken : List Method) (schedule : Nat → ReceptionEvent) :
    Nat → Reception
  | 0 => w
  | k + 1 => (w.serve broken schedule k).stepAmid broken (schedule k)

variable {w w' : Reception} {broken : List Method} {schedule : Nat → ReceptionEvent}
  {e : ReceptionEvent} {n : Nat} {v : Visit} {isReset : Nat → Prop} {isGivenUp : Prop}
  {ledger : List (Option VisitOutcome)}

theorem serve_succ (w : Reception) (broken : List Method) (schedule : Nat → ReceptionEvent)
    (k : Nat) : w.serve broken schedule (k + 1) =
      (w.serve broken schedule k).stepAmid broken (schedule k) := rfl

theorem stepAmid_of_breaks (hv : w.visits[n]? = some v) (hb : v.breaks broken = true) :
    w.stepAmid broken (.read n) = w.finish n v none w.stats := by
  rw [stepAmid, onVisit_of_some hv, if_pos hb]

theorem stepAmid_of_not_breaks (hv : w.visits[n]? = some v) (hb : v.breaks broken = false) :
    w.stepAmid broken (.read n) = w.read n := by
  rw [stepAmid, onVisit_of_some hv, hb]
  rfl

/-- The server a rehearsal knows, with the handlers that break down. -/
def asServerAmid (w : Reception) (broken : List Method) (endpoint : Endpoint) : Server :=
  { w.asServer endpoint with broken }

/-- A call whose handler works is answered as if all of them did. -/
theorem arrive_asServerAmid {arrived : Pieces} (h : w.visits[n]? = some { arrived })
    {bytes : Bytes} {closed : Bool} (endpoint : Endpoint)
    (hb : ({ arrived := arrived ++ [bytes], isEnded := closed } : Visit).breaks broken = false) :
    (w.asServerAmid broken endpoint).arrive w.stop n bytes closed =
      let done := (w.asServer endpoint).arrive w.stop n bytes closed
      { done with server := { done.server with broken } } := by
  have hc : (w.asServer endpoint).connections[n]? = some ⟨arrived, [], true⟩ := by
    simp only [asServer, List.getElem?_map, h, Option.map_some]
    rfl
  have hc' : (w.asServerAmid broken endpoint).connections[n]? = some ⟨arrived, [], true⟩ := hc
  by_cases hdone : ((CallReading.read (arrived ++ [bytes])).isOpen && !closed) = true
  · simp only [Server.arrive, hc, hc', hdone, Bool.not_true, Bool.false_eq_true, if_false, if_true]
    rfl
  · simp only [Server.arrive, hc, hc', hdone, Bool.not_true, Bool.false_eq_true, if_false]
    cases hr : CallReading.read (arrived ++ [bytes]) with
    | nothing | part | unclosed | refused fault => rfl
    | call r rest =>
      simp only [Visit.breaks, hr, decide_eq_false_iff_not] at hb
      have hworks : r.method ∉ (w.asServer endpoint).broken := List.not_mem_nil
      cases he : Server.encodeResponse (w.table.dispatch w.stop r).response with
      | ok written =>
        simp only [Server.conclude, CallReading.atEnd]
        rw [Server.answer_of_written hb he, Server.answer_of_written hworks he]
        rfl
      | error fault =>
        simp only [Server.conclude, CallReading.atEnd]
        rw [Server.answer_of_unwritten hb he, Server.answer_of_unwritten hworks he]
        rfl

/-- What arrives is read and answered as in a rehearsal, whichever handlers break down there. -/
theorem asServerAmid_arrive {arrived : Pieces} (h : w.visits[n]? = some { arrived })
    (bytes : Bytes) (closed : Bool) (endpoint : Endpoint) {count : Nat}
    (hcount : ((w.asServer endpoint).arrive w.stop n bytes closed).written.length ≤ count) :
    let done := (w.asServerAmid broken endpoint).arrive w.stop n bytes closed
    let w' := ((w.after (delivered n bytes closed)).stepAmid broken (.read n)).write n count
    w'.asServerAmid broken endpoint = done.server ∧ w'.stop = done.stop := by
  have hn : n < w.visits.length := (List.getElem?_eq_some_iff.mp h).1
  have hv := getElem?_setVisit_self hn { arrived := arrived ++ [bytes], isEnded := closed }
  cases hb : ({ arrived := arrived ++ [bytes], isEnded := closed } : Visit).breaks broken with
  | false =>
    have hread : (w.after (delivered n bytes closed)).stepAmid broken (.read n) =
        (w.after (delivered n bytes closed)).read n := by
      rw [after_delivered h, stepAmid_of_not_breaks hv hb]
    obtain ⟨hserver, hstop⟩ := asServer_arrive h bytes closed endpoint hcount
    rw [hread, arrive_asServerAmid h endpoint hb]
    exact ⟨congrArg (fun s : Server => { s with broken }) hserver, hstop⟩
  | true =>
    obtain ⟨-, r, rest, hr, hm⟩ := Visit.exists_call_of_breaks hb
    have hc : (w.asServerAmid broken endpoint).connections[n]? = some ⟨arrived, [], true⟩ := by
      simp only [asServerAmid, asServer, List.getElem?_map, h, Option.map_some]
      rfl
    have hbroken : r.method ∈ (w.asServerAmid broken endpoint).broken := hm
    rw [Server.arrive_of_concluded hc rfl (.inl (by rw [hr]; rfl)), hr, Server.conclude,
      CallReading.atEnd]
    simp only [Server.answer_of_broken hbroken]
    rw [after_delivered h, stepAmid_of_breaks hv hb, finish_setVisit,
      write_of_not_writing (getElem?_finish_self hn _ _ _) (fun _ _ h => by cases h)]
    refine ⟨?_, rfl⟩
    rw [asServerAmid, asServer_finish]
    rfl

/-- What an event does to the visits and the counts: nothing; somebody is accepted; a visit goes on;
it comes to its outcome and is counted by it; or all that go on are given up. -/
inductive Effect (broken : List Method) (w : Reception) (e : ReceptionEvent) (w' : Reception) :
    Prop where
  | still (hvisits : w'.visits = w.visits) (hstats : w'.stats = w.stats)
  | accepted (hvisits : w'.visits = w.visits ++ [({} : Visit)])
      (hstats : w'.stats = { w.stats with connections := w.stats.connections + 1 })
  | goesOn (n : Nat) (v v' : Visit) (hv : w.visits[n]? = some v) (ho : v.isOpen = true)
      (hon : v'.Ongoing) (hvisits : w'.visits = w.visits.set n v') (hstats : w'.stats = w.stats)
  | settles (n : Nat) (v v' : Visit) (o : VisitOutcome) (hv : w.visits[n]? = some v)
      (ho : v.isOpen = true) (hcame : v'.CameTo broken (e = .reset n) False (some o))
      (hvisits : w'.visits = w.visits.set n v') (hstats : w'.stats = o.counted w.stats)
  | givesUp (he : e = .giveUp) (hlate : w.isLate = true)
      (hvisits : w'.visits = w.visits.map Visit.giveUp) (hstats : w'.stats = w.stats)

theorem isOpen_of_reading (hs : v.stage = .reading) : v.isOpen = true := by
  simp only [Visit.isOpen, hs]

theorem written_of_reading (hs : v.stage = .reading) (hf : v.Faithful) : v.written = [] := by
  simpa only [Visit.Faithful, hs] using hf

/-- A connection that is closed with an outcome is counted by it. -/
theorem effect_finish (hv : w.visits[n]? = some v) (ho : v.isOpen = true) {v' : Visit}
    {response : Option Response} {stats : ServerStats} {o : VisitOutcome}
    (hcame : ({ v' with stage := .closed response } : Visit).CameTo broken (e = .reset n) False
      (some o))
    (hvisits : w'.visits = w.visits) (hstats : stats = o.counted w.stats) :
    Effect broken w e (w'.finish n v' response stats) :=
  .settles n v { v' with stage := .closed response } o hv ho hcame
    (by simp only [finish, hvisits]) hstats

/-- An answer of which a part has been written goes on, or is counted when it is complete. -/
theorem effect_answer (hv : w.visits[n]? = some v) (ho : v.isOpen = true) {v' : Visit}
    (hr : v'.IsCalled) {response : Response} {left : Bytes}
    (he : Server.encodeResponse response = .ok (v'.written ++ left))
    (hvisits : w'.visits = w.visits) (hstats : w'.stats = w.stats) :
    Effect broken w e (w'.answer n v' response left) := by
  by_cases hleft : left = []
  · rw [hleft, List.append_nil] at he
    rw [answer, if_pos hleft, hstats]
    exact effect_finish (o := .answered response) hv ho (.answered rfl hr he) hvisits rfl
  · rw [answer, if_neg hleft]
    have hon : ({ v' with stage := .writing response left } : Visit).Ongoing :=
      ⟨rfl, ⟨hleft, he⟩, fun _ => hr⟩
    exact .goesOn n v _ hv ho hon (by simp only [setVisit, hvisits]) hstats

/-- A call is answered, or it is counted as failed when its answer is too large. -/
theorem effect_dispatch (hv : w.visits[n]? = some v) (hs : v.stage = .reading) (hf : v.Faithful)
    (hr : v.IsCalled) (r : Request) : Effect broken w e (w.dispatch n v r) := by
  have hw := written_of_reading hs hf
  have ho := isOpen_of_reading hs
  cases he : Server.encodeResponse (w.table.dispatch w.stop r).response with
  | ok bytes =>
    simp only [dispatch, he]
    refine effect_answer hv ho hr ?_ rfl rfl
    rw [hw, List.nil_append]
    exact he
  | error fault =>
    simp only [dispatch, he]
    exact effect_finish (o := .unwritten) hv ho (.unwritten rfl hr he hw) rfl rfl

/-- What has arrived is read: more may come, or it is a call that is answered, or no call. -/
theorem effect_reading (hv : w.visits[n]? = some v) (hs : v.stage = .reading) (hf : v.Faithful) :
    Effect broken w e (w.read n) := by
  have ho := isOpen_of_reading hs
  have hw := written_of_reading hs hf
  simp only [read, onVisit_of_some hv, ne_eq, hs, not_true_eq_false, if_false]
  split
  · exact .still rfl rfl
  · next hdone =>
    cases hend : (CallReading.read v.arrived).atEnd with
    | error fault => exact effect_finish (o := .unread) hv ho (.unread rfl hend hw) rfl rfl
    | ok found =>
      cases found with
      | some call =>
        exact effect_dispatch hv hs hf ⟨_, _, CallReading.eq_call_of_atEnd hend⟩ call.1
      | none =>
        have hnothing := CallReading.flatten_of_atEnd hend
        -- A reading that comes to nothing waits for more, unless no more can come.
        have hended : v.isEnded = true := by
          simpa [CallReading.eq_nothing_of_atEnd hend, CallReading.isOpen] using hdone
        exact effect_finish (o := .silent) hv ho (.silent rfl hnothing hended hw) rfl rfl

theorem read_of_not_reading (hv : w.visits[n]? = some v) (hs : v.stage ≠ .reading) :
    w.read n = w := by
  simp only [read, onVisit_of_some hv, ne_eq, hs, not_false_eq_true, if_true]

/-- To read a call either leaves it for later or brings the visit to its outcome or to its
answer. -/
theorem effect_read (hon : ∀ v ∈ w.visits, v.isOpen = true → v.Ongoing) (n : Nat) :
    Effect broken w (.read n) (w.stepAmid broken (.read n)) := by
  cases hv : w.visits[n]? with
  | none =>
    simp only [stepAmid, onVisit, hv]
    exact .still rfl rfl
  | some v =>
    have hfaithful (hs : v.stage = .reading) : v.Faithful :=
      (hon v (List.mem_of_getElem? hv) (isOpen_of_reading hs)).faithful
    cases hb : v.breaks broken with
    | true =>
      obtain ⟨hs, r, rest, hr, hm⟩ := Visit.exists_call_of_breaks hb
      have hw := written_of_reading hs (hfaithful hs)
      rw [stepAmid_of_breaks hv hb]
      exact effect_finish (o := .crashed) hv (isOpen_of_reading hs) (.crashed rfl hr hm hw) rfl rfl
    | false =>
      rw [stepAmid_of_not_breaks hv hb]
      by_cases hs : v.stage = .reading
      · exact effect_reading hv hs (hfaithful hs)
      · rw [read_of_not_reading hv hs]
        exact .still rfl rfl

theorem effect_write (hon : ∀ v ∈ w.visits, v.isOpen = true → v.Ongoing) (n count : Nat) :
    Effect broken w (.write n count) (w.write n count) := by
  cases hv : w.visits[n]? with
  | none =>
    simp only [write, onVisit, hv]
    exact .still rfl rfl
  | some v =>
    cases hs : v.stage with
    | reading | closed response =>
      rw [write_of_not_writing hv fun _ _ h => Stage.noConfusion (hs.symm.trans h)]
      exact .still rfl rfl
    | writing response left =>
      have ho : v.isOpen = true := by simp only [Visit.isOpen, hs]
      obtain ⟨-, hf, hcalled⟩ := hon v (List.mem_of_getElem? hv) ho
      simp only [Visit.Faithful, hs] at hf
      have hr : ({ v with written := v.written ++ left.take count } : Visit).IsCalled :=
        hcalled (by simp [hs])
      rw [write_of_writing hv hs]
      refine effect_answer hv ho hr ?_ rfl rfl
      rw [List.append_assoc, List.take_append_drop, hf.2]

/-- What arrives, or the end of it, leaves a visit open, and one that is closed as it is. -/
theorem effect_onVisit (hon : ∀ v ∈ w.visits, v.isOpen = true → v.Ongoing) (n : Nat)
    {f : Visit → Visit} (hopen : ∀ v : Visit, v.Ongoing → (f v).Ongoing)
    (hclosed : ∀ v : Visit, v.isOpen = false → f v = v) :
    Effect broken w e (w.onVisit n fun v => w.setVisit n (f v)) := by
  cases hv : w.visits[n]? with
  | none =>
    simp only [onVisit, hv]
    exact .still rfl rfl
  | some v =>
    rw [onVisit_of_some hv]
    cases ho : v.isOpen with
    | true =>
      exact .goesOn n v (f v) hv ho (hopen v (hon v (List.mem_of_getElem? hv) ho)) rfl rfl
    | false =>
      obtain ⟨hn, hget⟩ := List.getElem?_eq_some_iff.mp hv
      rw [hclosed v ho]
      refine .still ?_ rfl
      rw [setVisit, ← hget]
      exact List.set_getElem_self hn

theorem effect_stepAmid (hon : ∀ v ∈ w.visits, v.isOpen = true → v.Ongoing)
    (e : ReceptionEvent) : Effect broken w e (w.stepAmid broken e) := by
  cases e with
  | read n => exact effect_read hon n
  | write n count => exact effect_write hon n count
  | arrive n bytes =>
    exact effect_onVisit hon n (fun v h => h.arrive bytes)
      fun v ho => Visit.arrive_of_closed ho bytes
  | close n =>
    exact effect_onVisit hon n (fun v h => h.close) fun v ho => Visit.close_of_closed ho
  | stop reason | pass millis => exact .still rfl rfl
  | accept =>
    simp only [stepAmid, step, accept]
    split
    · exact .still rfl rfl
    · exact .accepted rfl rfl
  | shutdown =>
    simp only [stepAmid, step, shutdown]
    split <;> exact .still rfl rfl
  | giveUp =>
    simp only [stepAmid, step]
    split
    · next hlate => exact .givesUp rfl hlate rfl rfl
    · exact .still rfl rfl
  | reset n =>
    simp only [stepAmid, step]
    cases hv : w.visits[n]? with
    | none =>
      simp only [onVisit, hv]
      exact .still rfl rfl
    | some v =>
      rw [onVisit_of_some hv]
      split
      · next ho =>
        have hu := (hon v (List.mem_of_getElem? hv) ho).unfinished
        exact effect_finish (o := .lost) hv ho (.lost rfl rfl hu) rfl rfl
      · exact .still rfl rfl

/-- The counts of the server are those of its visits, and this is what they have come to. -/
structure Kept (broken : List Method) (isReset : Nat → Prop) (isGivenUp : Prop) (w : Reception)
    (ledger : List (Option VisitOutcome)) : Prop where
  length : ledger.length = w.visits.length
  stats : w.stats = tally ledger
  came : ∀ (n : Nat) (v : Visit), w.visits[n]? = some v →
    ∃ o, ledger[n]? = some o ∧ v.CameTo broken (isReset n) isGivenUp o

theorem Kept.ongoing (h : w.Kept broken isReset isGivenUp ledger) :
    ∀ v ∈ w.visits, v.isOpen = true → v.Ongoing := by
  intro v hv ho
  obtain ⟨n, hn⟩ := List.mem_iff_getElem?.mp hv
  obtain ⟨o, -, hcame⟩ := h.came n v hn
  rw [hcame.isOpen, Option.isNone_iff_eq_none] at ho
  subst ho
  cases hcame with
  | ongoing hon => exact hon

/-- As long as a visit goes on it has no outcome. -/
theorem Kept.getElem?_of_open (h : w.Kept broken isReset isGivenUp ledger)
    (hv : w.visits[n]? = some v) (ho : v.isOpen = true) : ledger[n]? = some none := by
  obtain ⟨o, hledger, hcame⟩ := h.came n v hv
  rw [hcame.isOpen, Option.isNone_iff_eq_none] at ho
  rw [hledger, ho]

/-- More connections may have broken, or been given up, than are accounted for. -/
theorem Kept.mono (h : w.Kept broken isReset isGivenUp ledger) {isReset' : Nat → Prop}
    {isGivenUp' : Prop} (hr : ∀ n, isReset n → isReset' n) (hg : isGivenUp → isGivenUp') :
    w.Kept broken isReset' isGivenUp' ledger where
  length := h.length
  stats := h.stats
  came n v hv := by
    obtain ⟨o, hledger, hcame⟩ := h.came n v hv
    exact ⟨o, hledger, hcame.mono (hr n) hg⟩

/-- One visit is replaced, and with it what it has come to. -/
theorem Kept.set (h : w.Kept broken isReset isGivenUp ledger) {v' : Visit}
    {o : Option VisitOutcome} (hcame : v'.CameTo broken (isReset n) isGivenUp o)
    (hvisits : w'.visits = w.visits.set n v') (hstats : w'.stats = tally (ledger.set n o)) :
    w'.Kept broken isReset isGivenUp (ledger.set n o) where
  length := by rw [hvisits, List.length_set, List.length_set, h.length]
  stats := hstats
  came m u hu := by
    rw [hvisits] at hu
    have hm := (List.getElem?_eq_some_iff.mp hu).1
    rw [List.length_set] at hm
    by_cases hnm : n = m
    · subst hnm
      rw [List.getElem?_set_self hm, Option.some.injEq] at hu
      subst hu
      exact ⟨o, List.getElem?_set_self (by rw [h.length]; exact hm), hcame⟩
    · rw [List.getElem?_set_ne hnm] at hu ⊢
      exact h.came m u hu

/-- All visits that still go on are given up. -/
theorem Kept.giveUp (h : w.Kept broken isReset isGivenUp ledger) (hg : isGivenUp)
    (hvisits : w'.visits = w.visits.map Visit.giveUp) (hstats : w'.stats = w.stats) :
    w'.Kept broken isReset isGivenUp (ledger.map (·.or (some .abandoned))) where
  length := by rw [hvisits, List.length_map, List.length_map, h.length]
  stats := by rw [hstats, h.stats, tally_abandon]
  came n u hu := by
    rw [hvisits, List.getElem?_map, Option.map_eq_some_iff] at hu
    obtain ⟨v, hv, rfl⟩ := hu
    obtain ⟨o, hledger, hcame⟩ := h.came n v hv
    refine ⟨o.or (some .abandoned), by rw [List.getElem?_map, hledger]; rfl, ?_⟩
    cases o with
    | some o =>
      rw [Visit.giveUp_of_closed hcame.isOpen]
      exact hcame
    | none =>
      cases hcame with
      | ongoing hon => exact .abandoned hg rfl hon.unfinished

/-- Each event keeps the counts those of the visits. -/
theorem exists_kept_step (h : w.Kept broken isReset isGivenUp ledger)
    (heffect : Effect broken w e w') :
    ∃ ledger', w'.Kept broken (fun n => isReset n ∨ e = .reset n)
      (isGivenUp ∨ e = .giveUp ∧ w.isLate = true) ledger' := by
  have h' : w.Kept broken (fun n => isReset n ∨ e = .reset n)
      (isGivenUp ∨ e = .giveUp ∧ w.isLate = true) ledger := h.mono (fun _ => .inl) .inl
  cases heffect with
  | still hvisits hstats =>
    exact ⟨ledger, by rw [hvisits, h'.length], by rw [hstats, h'.stats], by
      rw [hvisits]
      exact h'.came⟩
  | accepted hvisits hstats =>
    refine ⟨ledger ++ [none], ?_, ?_, fun n v hv => ?_⟩
    · rw [hvisits, List.length_append, List.length_append, h'.length]
      rfl
    · rw [hstats, h'.stats, tally_concat]
    · rw [hvisits] at hv
      by_cases hn : n < w.visits.length
      · rw [List.getElem?_append_left hn] at hv
        rw [List.getElem?_append_left (by rw [h'.length]; exact hn)]
        exact h'.came n v hv
      · have hlast : n = w.visits.length := by
          have hlt := (List.getElem?_eq_some_iff.mp hv).1
          rw [List.length_append, List.length_singleton] at hlt
          omega
        subst hlast
        rw [List.getElem?_concat_length, Option.some.injEq] at hv
        subst hv
        have hnew : ({} : Visit).Ongoing := ⟨rfl, rfl, fun h => absurd rfl h⟩
        exact ⟨none, by rw [← h'.length, List.getElem?_concat_length], .ongoing hnew⟩
  | goesOn n v v' hv ho hon hvisits hstats =>
    have hnone := h'.getElem?_of_open hv ho
    obtain ⟨hn, hget⟩ := List.getElem?_eq_some_iff.mp hnone
    refine ⟨ledger.set n none, h'.set (.ongoing hon) hvisits ?_⟩
    rw [← hget, List.set_getElem_self hn, hstats, h'.stats]
  | settles n v v' o hv ho hcame hvisits hstats =>
    refine ⟨ledger.set n (some o), h'.set (hcame.mono .inr False.elim) hvisits ?_⟩
    rw [hstats, h'.stats, tally_settle (h'.getElem?_of_open hv ho)]
  | givesUp he hlate hvisits hstats =>
    exact ⟨_, h'.giveUp (.inr ⟨he, hlate⟩) hvisits hstats⟩

/-- At any time the counts of a server are those of what its visits have come to. -/
theorem exists_kept_run (hvisits : w.visits = []) (hstats : w.stats = {}) (broken : List Method)
    (schedule : Nat → ReceptionEvent) (k : Nat) :
    ∃ ledger, (w.serve broken schedule k).Kept broken (fun n => ∃ i < k, schedule i = .reset n)
      (∃ i < k, schedule i = .giveUp ∧ (w.serve broken schedule i).isLate = true) ledger := by
  induction k with
  | zero =>
    refine ⟨[], by rw [serve, hvisits]; rfl, by rw [serve, hstats]; rfl, fun n v hv => ?_⟩
    rw [serve, hvisits] at hv
    cases hv
  | succ k ih =>
    obtain ⟨ledger, h⟩ := ih
    obtain ⟨ledger', h'⟩ := exists_kept_step h (effect_stepAmid h.ongoing (schedule k))
    refine ⟨ledger', h'.mono (fun n hn => ?_) fun hg => ?_⟩
    · rcases hn with ⟨i, hi, hr⟩ | hr
      · exact ⟨i, Nat.lt_succ_of_lt hi, hr⟩
      · exact ⟨k, Nat.lt_succ_self k, hr⟩
    · rcases hg with ⟨i, hi, hg⟩ | hg
      · exact ⟨i, Nat.lt_succ_of_lt hi, hg⟩
      · exact ⟨k, Nat.lt_succ_self k, hg⟩

end Reception
end ScriptedPeer
