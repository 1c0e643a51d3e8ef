import Mathlib.Data.Nat.Init
import ScriptedPeer.Proofs.Reply.Limits
import ScriptedPeer.Proofs.Serving.Visits
import ScriptedPeer.Scenario.Catalog
import ScriptedPeer.Scenario.Wiring

/-!
# Serving up to a limit

A scenario replies to so many Heartbeats and then stops. Its server may have any number of visitors
by then, each of them at another point of the visit. The counter is asked once for each Heartbeat
that is dispatched, in the order in which that happens, so the limit holds whatever the order of
everything else. The stop comes with the dispatch that uses up the limit, or from outside. Those who
were accepted before are still read and answered, up to the deadline, but Heartbeats beyond the
limit are answered with nothing.
-/

namespace ScriptedPeer.Reception

open BoundedCounter

/-- How many Heartbeats were dispatched. -/
def heartbeats (w : Reception) : Nat := w.calls.countP (·.method = .heartbeat)

/-- A server that replies to Heartbeats up to a limit and handles nothing else. -/
structure Limited (limit : UInt32) (p : Profile) (w : Reception) : Prop where
  counter : w.table.counter? .heartbeat = some (askedTimes limit w.heartbeats)
  profile : w.table.profile? .heartbeat = some p
  others : ∀ m, m ≠ .heartbeat → w.table.get? m = none
  faithful : ∀ v ∈ w.visits, v.Faithful
  replies : w.replies = min w.heartbeats limit.toNat
  withheld : w.stats.withheld = w.heartbeats - limit.toNat
  stopped : limit ≠ 0 → limit.toNat ≤ w.heartbeats → w.stop.isTriggered = true

variable {limit : UInt32} {p : Profile} {w : Reception} {schedule : Nat → ReceptionEvent}

theorem heartbeats_concat {r : Request} {w' : Reception} (h : w'.calls = w.calls ++ [r]) :
    w'.heartbeats = w.heartbeats + if r.method = .heartbeat then 1 else 0 := by
  rw [heartbeats, h, List.countP_append, List.countP_singleton, heartbeats]
  simp only [decide_eq_true_eq]

/-- What a Heartbeat is answered, and what it does to the stop. -/
theorem Limited.dispatch_heartbeat (h : w.Limited limit p) {r : Request}
    (hr : r.method = .heartbeat) :
    let done := w.table.dispatch w.stop r
    done.response =
      (if w.heartbeats < limit.toNat then .reply (p.reply .heartbeat) else .withhold) ∧
    done.stop = (if w.heartbeats + 1 = limit.toNat then w.stop.trigger (.replyLimit .heartbeat)
      else w.stop) ∧
    done.table.counter? .heartbeat = some (askedTimes limit (w.heartbeats + 1)) := by
  have he : (CallEvent.dispatched r).reaches .heartbeat := CallEvent.reaches_iff.mpr ⟨hr, hr⟩
  obtain ⟨hcounter, hresponse, hstop⟩ :=
    ServiceTable.take_of_counter h.counter h.profile w.stop he
  rw [check_askedTimes] at hcounter hresponse hstop
  intro done
  have hresponse' : done.response = _ := hresponse
  have hstop' : done.stop = _ := hstop
  refine ⟨?_, ?_, hcounter⟩
  · rw [hresponse']
    by_cases hlt : w.heartbeats + 1 < limit.toNat
    · simp [hlt, Nat.lt_of_succ_lt hlt]
    · by_cases heq : w.heartbeats + 1 = limit.toNat
      · simp [← heq]
      · simp [hlt, heq, show ¬w.heartbeats < limit.toNat by omega]
  · rw [hstop']
    by_cases hlt : w.heartbeats + 1 < limit.toNat
    · simp [hlt, Nat.ne_of_lt hlt]
    · by_cases heq : w.heartbeats + 1 = limit.toNat <;> simp [hlt, heq]

/-- Calls of other methods are not handled. -/
theorem Limited.dispatch_other (h : w.Limited limit p) {r : Request} (hr : r.method ≠ .heartbeat) :
    w.table.dispatch w.stop r = ⟨.unimplemented r.method, w.table, w.stop, false⟩ :=
  ServiceTable.dispatch_of_get?_eq_none (h.others _ hr) w.stop

/-- Each dispatched call is answered by one reply more, or by none. -/
theorem replies_dispatch {n : Nat} {v v' : Visit} {response : Response}
    (hv : w.visits[n]? = some v) (hs : v.stage = .reading) (ha : v'.answer? = some response) :
    (w.visits.set n v').countP Visit.isReplied = w.replies + if response.isReply then 1 else 0 := by
  have h := countP_set_add (p := Visit.isReplied) hv v'
  have hnot : v.isReplied = false := by
    simp only [Visit.isReplied, Visit.answer?, hs, Option.any_none]
  rw [hnot, Visit.isReplied, ha, Option.any_some] at h
  exact h

theorem Limited.faithful_dispatch (h : w.Limited limit p) {n : Nat} {v : Visit}
    (hv : w.visits[n]? = some v) (hs : v.stage = .reading) (r : Request) :
    ∀ u ∈ (w.dispatch n v r).visits, u.Faithful := by
  obtain ⟨-, -, -, -, v', hvisits, -, hfaithful, -⟩ := dispatch_spec (w := w) n hs r
  rw [hvisits]
  intro u hu
  rcases List.mem_or_eq_of_mem_set hu with hu | rfl
  · exact h.faithful u hu
  · exact hfaithful (h.faithful v (List.mem_of_getElem? hv))

/-- A Heartbeat is replied to up to the limit, and withheld beyond it. -/
theorem limited_dispatch_heartbeat (h : w.Limited limit p) {n : Nat} {v : Visit}
    (hv : w.visits[n]? = some v) (hs : v.stage = .reading) {r : Request}
    (hr : r.method = .heartbeat) : (w.dispatch n v r).Limited limit p := by
  obtain ⟨htable, hstop, hcalls, hwithheld, v', hvisits, ha, -, -⟩ :=
    dispatch_spec (w := w) n hs r
  obtain ⟨hresponse, hstop', hcounter⟩ := h.dispatch_heartbeat hr
  have hcount := heartbeats_concat hcalls
  have hreplies := replies_dispatch hv hs ha
  rw [if_pos hr] at hcount
  rw [hresponse] at hwithheld hreplies
  refine ⟨?_, ?_, ?_, h.faithful_dispatch hv hs r, ?_, ?_, ?_⟩
  · rw [htable, hcounter, hcount]
  · rw [htable]
    exact (ServiceTable.profile?_take w.table w.stop (.dispatched r) _).trans h.profile
  · intro m hm
    rw [htable]
    refine (ServiceTable.get?_take_of_not_reaches w.table w.stop (e := .dispatched r) ?_).trans
      (h.others m hm)
    intro he
    exact hm ((CallEvent.reaches_iff.mp he).2.symm.trans hr)
  · rw [replies, hvisits, hreplies, h.replies, hcount]
    by_cases hlt : w.heartbeats < limit.toNat
    · simp only [hlt, if_true, Response.isReply]
      omega
    · simp only [hlt, if_false, Response.isReply, Bool.false_eq_true]
      omega
  · rw [hwithheld, h.withheld, hcount]
    by_cases hlt : w.heartbeats < limit.toNat
    · simp only [hlt, if_true, reduceCtorEq, if_false]
      omega
    · simp only [hlt, if_false, if_true]
      omega
  · intro hn hle
    rw [hstop, hstop']
    split
    · exact StopSignal.isTriggered_trigger _ _
    · exact h.stopped hn (by omega)

/-- Any other call is answered as unimplemented and counts for nothing. -/
theorem limited_dispatch_other (h : w.Limited limit p) {n : Nat} {v : Visit}
    (hv : w.visits[n]? = some v) (hs : v.stage = .reading) {r : Request}
    (hr : r.method ≠ .heartbeat) : (w.dispatch n v r).Limited limit p := by
  obtain ⟨htable, hstop, hcalls, hwithheld, v', hvisits, ha, -, -⟩ :=
    dispatch_spec (w := w) n hs r
  have hcount := heartbeats_concat hcalls
  have hreplies := replies_dispatch hv hs ha
  rw [if_neg hr, Nat.add_zero] at hcount
  rw [h.dispatch_other hr] at htable hstop hwithheld hreplies
  refine ⟨?_, ?_, ?_, h.faithful_dispatch hv hs r, ?_, ?_, ?_⟩
  · rw [htable, hcount, h.counter]
  · rw [htable, h.profile]
  · rw [htable]
    exact h.others
  · rw [replies, hvisits, hreplies, hcount, h.replies]
    rfl
  · rw [hwithheld, hcount, h.withheld]
    rfl
  · rw [hstop, hcount]
    exact h.stopped

theorem Limited.of_quiet (h : w.Limited limit p) {w' : Reception} (hq : Quiet w w') :
    w'.Limited limit p := by
  have hcount : w'.heartbeats = w.heartbeats := by rw [heartbeats, hq.calls, heartbeats]
  refine ⟨?_, ?_, ?_, hq.faithful, ?_, ?_, ?_⟩
  · rw [hq.table, hcount, h.counter]
  · rw [hq.table, h.profile]
  · rw [hq.table]
    exact h.others
  · rw [hq.replies, hcount, h.replies]
  · rw [hq.withheld, hcount, h.withheld]
  · rw [hq.stop, hcount]
    exact h.stopped

theorem limited_step (h : w.Limited limit p) (e : ReceptionEvent) : (w.step e).Limited limit p := by
  rcases step_cases h.faithful e with ⟨n, v, r, -, -, hv, hs, -, he⟩ | ⟨reason, -, he⟩ | hq
  · rw [he]
    by_cases hr : r.method = .heartbeat
    · exact limited_dispatch_heartbeat h hv hs hr
    · exact limited_dispatch_other h hv hs hr
  · rw [he]
    exact { h with stopped := fun _ _ => StopSignal.isTriggered_trigger _ _ }
  · exact h.of_quiet hq

/-- At any time the server has kept to its limit. -/
theorem limited_run (h : w.Limited limit p) (schedule : Nat → ReceptionEvent) (k : Nat) :
    (w.run schedule k).Limited limit p := by
  induction k with
  | zero => exact h
  | succ k ih => exact limited_step ih (schedule k)

/-- What a dispatched call does to the stop. -/
theorem stop_dispatch (h : w.Limited limit p) {v : Visit} (hs : v.stage = .reading) (n : Nat)
    (r : Request) : (w.dispatch n v r).stop =
      if r.method = .heartbeat ∧ w.heartbeats + 1 = limit.toNat then
        w.stop.trigger (.replyLimit .heartbeat)
      else w.stop := by
  rw [(dispatch_spec n hs r).2.1]
  by_cases hr : r.method = .heartbeat
  · simp only [hr, true_and, (h.dispatch_heartbeat hr).2.1]
  · simp only [hr, false_and, if_false, h.dispatch_other hr]

/-- A stop that has been given stays as it is. -/
theorem stop_step_of_isTriggered (h : w.Limited limit p) (hs : w.stop.isTriggered = true)
    (e : ReceptionEvent) : (w.step e).stop = w.stop := by
  rcases step_cases h.faithful e with ⟨n, v, r, -, -, hv, hr, -, he⟩ | ⟨reason, -, he⟩ | hq
  · rw [he, stop_dispatch h hr]
    split
    · exact StopSignal.trigger_of_isTriggered hs _
    · rfl
  · rw [he]
    exact StopSignal.trigger_of_isTriggered hs reason
  · exact hq.stop

/-- The stop is given with the last reply, and not before. -/
def StopsAt (limit : UInt32) (w : Reception) : Prop :=
  w.stop.reason = if limit.toNat ≤ w.heartbeats then some (.replyLimit .heartbeat) else none

theorem stopsAt_step (h : w.Limited limit p) (hw : w.StopsAt limit) {e : ReceptionEvent}
    (he : ∀ reason, e ≠ .stop reason) : (w.step e).StopsAt limit := by
  rcases step_cases h.faithful e with ⟨n, v, r, -, -, hv, hr, -, hstep⟩ | ⟨reason, hstop, -⟩ | hq
  · have hcount : (w.dispatch n v r).heartbeats = _ :=
      heartbeats_concat (dispatch_spec n hr r).2.2.1
    rw [hstep, StopsAt, stop_dispatch h hr, hcount]
    rw [StopsAt] at hw
    by_cases hm : r.method = .heartbeat
    · simp only [hm, true_and, if_true]
      by_cases heq : w.heartbeats + 1 = limit.toNat
      · rw [if_neg (by omega)] at hw
        rw [if_pos heq, if_pos (by omega), StopSignal.trigger, hw]
        rfl
      · rw [if_neg heq, hw]
        exact if_congr (by omega) rfl rfl
    · simp only [hm, false_and, if_false, Nat.add_zero]
      exact hw
  · exact absurd hstop (he reason)
  · rw [StopsAt, hq.stop, heartbeats, hq.calls]
    exact hw

/-- As long as nobody else gives the stop, it is given with the last reply. -/
theorem stopsAt_run (h : w.Limited limit p) (hw : w.StopsAt limit) {k : Nat}
    (he : ∀ i < k, ∀ reason, schedule i ≠ .stop reason) : (w.run schedule k).StopsAt limit := by
  induction k with
  | zero => exact hw
  | succ k ih =>
    exact stopsAt_step (limited_run h schedule k) (ih fun i hi => he i (by omega)) (he k (by omega))

/-- From the stop on the visits are those there were. -/
theorem visits_run_of_stopped (h : w.Limited limit p) {k j : Nat} (hkj : k ≤ j)
    (hs : (w.run schedule k).stop.isTriggered = true) :
    (w.run schedule j).stop = (w.run schedule k).stop ∧
      (w.run schedule j).visits.length = (w.run schedule k).visits.length ∧
      (w.run schedule j).stats.connections = (w.run schedule k).stats.connections := by
  induction j, hkj using Nat.le_induction with
  | base => exact ⟨rfl, rfl, rfl⟩
  | succ j _ ih =>
    obtain ⟨hstop, hlength, hconnections⟩ := ih
    have hs' : (w.run schedule j).stop.isTriggered = true := by rw [hstop, hs]
    obtain ⟨hl, hc⟩ := length_step_of_stopped hs' (schedule j)
    rw [run_succ]
    exact ⟨(stop_step_of_isTriggered (limited_run h schedule j) hs' _).trans hstop,
      hl.trans hlength, hc.trans hconnections⟩

/-- A connection that is closed stays as it is. -/
theorem visit_run_of_closed {n : Nat} {v : Visit} {k j : Nat} (hkj : k ≤ j)
    (hv : (w.run schedule k).visits[n]? = some v) (ho : v.isOpen = false) :
    (w.run schedule j).visits[n]? = some v := by
  induction j, hkj using Nat.le_induction with
  | base => exact hv
  | succ j _ ih =>
    obtain ⟨v', h⟩ := exists_becomes ih (schedule j)
    rw [run_succ, h.visit, h.closed ho]

/-- The deadline comes so long after the stop was seen. -/
theorem deadline_run (hw : w.deadline = none) (schedule : Nat → ReceptionEvent) (k : Nat) :
    (w.run schedule k).drain = w.drain ∧
      ∀ d, (w.run schedule k).deadline = some d → ∃ i < k, schedule i = .shutdown ∧
        (w.run schedule i).stop.isTriggered = true ∧ d = (w.run schedule i).now + w.drain := by
  induction k with
  | zero => exact ⟨rfl, fun d hd => by cases hw.symm.trans hd⟩
  | succ k ih =>
    obtain ⟨hdrain, hdeadline⟩ := ih
    obtain ⟨hdrain', hcases⟩ := deadline_step (w.run schedule k) (schedule k)
    refine ⟨hdrain'.trans hdrain, fun d hd => ?_⟩
    rcases hcases with hsame | ⟨hshutdown, hstop, hset⟩
    · obtain ⟨i, hi, hrest⟩ := hdeadline d (hsame ▸ hd)
      exact ⟨i, by omega, hrest⟩
    · rw [run_succ, hset, hdrain] at hd
      exact ⟨k, by omega, hshutdown, hstop, (Option.some.inj hd).symm⟩

/-- A Heartbeat beyond the limit is answered with nothing and counted as withheld, and one within it
by a reply, whether or not the stop has been given. -/
theorem read_heartbeat (h : w.Limited limit p) {n : Nat} {v : Visit} {r : Request}
    {rest : Wire.Pieces} (hv : w.visits[n]? = some v) (hs : v.stage = .reading)
    (hr : CallReading.read v.arrived = .call r rest) (hm : r.method = .heartbeat) :
    (w.heartbeats < limit.toNat → ∃ v', (w.step (.read n)).visits[n]? = some v' ∧
      v'.answer? = some (.reply (p.reply .heartbeat))) ∧
    (limit.toNat ≤ w.heartbeats →
      (w.step (.read n)).stats.withheld = w.stats.withheld + 1 ∧
      (w.step (.read n)).visits[n]? = some { v with stage := .closed (some .withhold) } ∧
      v.written = []) := by
  have hn : n < w.visits.length := (List.getElem?_eq_some_iff.mp hv).1
  obtain ⟨-, -, -, hwithheld, v', hvisits, ha, -, hwithhold⟩ := dispatch_spec (w := w) n hs r
  have hstep : w.step (.read n) = w.dispatch n v r := read_of_call hv hs hr
  have hget : (w.dispatch n v r).visits[n]? = some v' := by
    rw [hvisits, List.getElem?_set_self hn]
  rw [(h.dispatch_heartbeat hm).1] at ha hwithheld hwithhold
  rw [hstep]
  constructor
  · intro hlt
    rw [if_pos hlt] at ha
    exact ⟨v', hget, ha⟩
  · intro hle
    have hnot : ¬w.heartbeats < limit.toNat := Nat.not_lt.mpr hle
    rw [if_neg hnot] at hwithheld hwithhold
    refine ⟨hwithheld, ?_, ?_⟩
    · rw [hget, hwithhold rfl]
    · have hfaithful := h.faithful v (List.mem_of_getElem? hv)
      simpa only [Visit.Faithful, hs] using hfaithful

/-- The handler of the scenario that replies to so many Heartbeats. -/
def heartbeatTable (s : Settings) (p : Profile) : ServiceTable :=
  .ofHandlers [{ method := .heartbeat, policy := .counting s.replyLimit, profile := p }]

/-- Scenario 1.2 serves Heartbeats and calls nobody. -/
theorem wire_heartbeats (s : Settings) (p : Profile) (hasPeer : Bool) :
    (Catalog.find? ⟨1, 2⟩).map (·.wire s p hasPeer) =
      some (.ok { table := some (heartbeatTable s p), loops := [] }) := rfl

/-- The server as it is started. -/
def opened (s : Settings) (p : Profile) (now : Nat) : Reception :=
  { table := heartbeatTable s p, now, drain := s.drainTimeout.toNat }

theorem limited_opened (s : Settings) (p : Profile) (now : Nat) :
    (opened s p now).Limited s.replyLimit p where
  counter := by
    have hzero : (opened s p now).heartbeats = 0 := rfl
    rw [hzero, askedTimes_zero]
    rfl
  profile := rfl
  others m hm := by
    cases m with
    | heartbeat => exact absurd rfl hm
    | greet | tell | narrate => rfl
  faithful := nofun
  replies := (Nat.zero_min _).symm
  withheld := (Nat.zero_sub _).symm
  stopped hn hle := by
    have hzero : s.replyLimit.toNat = 0 := Nat.le_zero.mp hle
    exact absurd (UInt32.toNat.inj hzero) hn

theorem stopsAt_opened {s : Settings} (hn : s.replyLimit ≠ 0) (p : Profile) (now : Nat) :
    (opened s p now).StopsAt s.replyLimit := by
  have hpos : ¬s.replyLimit.toNat ≤ (opened s p now).heartbeats := by
    intro hle
    exact hn (UInt32.toNat.inj (Nat.le_zero.mp hle))
  rw [StopsAt, if_neg hpos]
  rfl

/-- However the visits go, the stop comes with the Heartbeat that uses up the limit, and without
somebody else's it does not come before. No more replies than the limit allows are ever written.
After the stop nobody is accepted. Those who were accepted are still read and answered: a Heartbeat
that comes when the limit has been used up is closed without a byte and counted as withheld, and one
that comes after somebody else's stop, with the limit not used up, is replied to. An open connection
is closed by nothing but what happens on it, until the deadline, which is a drain after the stop was
seen. -/
theorem serves_up_to_limit (s : Settings) (p : Profile) (hasPeer : Bool) (hn : s.replyLimit ≠ 0) :
    (Catalog.find? ⟨1, 2⟩).map (·.wire s p hasPeer) =
      some (.ok { table := some (heartbeatTable s p), loops := [] }) ∧
    ∀ (now : Nat) (schedule : Nat → ReceptionEvent),
      let limit := s.replyLimit.toNat
      let w := (opened s p now).run schedule
      ∀ k,
        (limit ≤ (w k).heartbeats → (w k).stop.isTriggered = true) ∧
        ((∀ i < k, ∀ reason, schedule i ≠ .stop reason) → (w k).stop.reason =
          if limit ≤ (w k).heartbeats then some (.replyLimit .heartbeat) else none) ∧
        (w k).repliesWritten ≤ limit ∧
        ((w k).stop.isTriggered = true → ∀ j, k ≤ j →
          (w j).stop = (w k).stop ∧ (w j).visits.length = (w k).visits.length ∧
          (w j).stats.connections = (w k).stats.connections) ∧
        (∀ n v r rest, schedule k = .read n → (w k).visits[n]? = some v → v.stage = .reading →
          CallReading.read v.arrived = .call r rest →
          (w (k + 1)).calls = (w k).calls ++ [r] ∧
          (r.method = .heartbeat → (w k).heartbeats < limit →
            ∃ v', (w (k + 1)).visits[n]? = some v' ∧
              v'.answer? = some (.reply (p.reply .heartbeat))) ∧
          (r.method = .heartbeat → limit ≤ (w k).heartbeats →
            (w (k + 1)).stats.withheld = (w k).stats.withheld + 1 ∧
            ∃ v', v'.isOpen = false ∧ v'.written = [] ∧ v'.answer? = some .withhold ∧
              ∀ j, k < j → (w j).visits[n]? = some v')) ∧
        (∀ n v, (w k).visits[n]? = some v → v.isOpen = true →
          ∃ v', (w (k + 1)).visits[n]? = some v' ∧
            (v'.isOpen = true ∨ schedule k = .read n ∨ (∃ count, schedule k = .write n count) ∨
              schedule k = .reset n ∨ schedule k = .giveUp ∧ (w k).isLate = true)) ∧
        (∀ d, (w k).deadline = some d → ∃ i < k, schedule i = .shutdown ∧
          (w i).stop.isTriggered = true ∧ d = (w i).now + s.drainTimeout.toNat) := by
  refine ⟨wire_heartbeats s p hasPeer, fun now schedule => ?_⟩
  intro limit w k
  have hstart := limited_opened s p now
  have h : (w k).Limited s.replyLimit p := limited_run hstart schedule k
  -- What is written is bounded by what was answered, and that by the counter.
  refine ⟨h.stopped hn, stopsAt_run hstart (stopsAt_opened hn p now), ?_,
    fun hs j hkj => visits_run_of_stopped hstart hkj hs, ?_, ?_, (deadline_run rfl schedule k).2⟩
  · calc (w k).repliesWritten ≤ (w k).replies := repliesWritten_le h.faithful
      _ = min (w k).heartbeats limit := h.replies
      _ ≤ limit := Nat.min_le_right _ _
  · intro n v r rest he hv hs hr
    have hstep : w (k + 1) = (w k).step (.read n) := by rw [← he]; rfl
    refine ⟨?_, fun hm hlt => ?_, fun hm hle => ?_⟩
    · rw [hstep, step, read_of_call hv hs hr, (dispatch_spec n hs r).2.2.1]
    · rw [hstep]
      exact (read_heartbeat h hv hs hr hm).1 hlt
    · obtain ⟨hwithheld, hclosed, hwritten⟩ := (read_heartbeat h hv hs hr hm).2 hle
      rw [← hstep] at hwithheld hclosed
      exact ⟨hwithheld, { v with stage := .closed (some .withhold) }, rfl, hwritten, rfl,
        fun j hj => visit_run_of_closed hj hclosed rfl⟩
  · intro n v hv ho
    obtain ⟨v', hbecomes⟩ := exists_becomes hv (schedule k)
    exact ⟨v', hbecomes.visit, hbecomes.isOpen ho⟩

/-- The bytes of a Heartbeat. -/
def heartbeatCall : Wire.Bytes := [0, 0, 0, 13, 0, 0, 0, 0, 1, 0, 0, 0, 0, 0, 0, 0, 97]

/-- Two visitors are accepted. The first calls at once and is answered; the second calls
afterwards. -/
def twoVisitors : Nat → ReceptionEvent
  | 0 | 1 => .accept
  | 2 => .arrive 0 heartbeatCall
  | 3 => .read 0
  | 4 => .write 0 100
  | 5 => .arrive 1 heartbeatCall
  | 6 => .read 1
  | _ => .pass 1

/-- With one reply to give, the second visitor is sent away, whatever comes later. -/
theorem twoVisitors_second :
    let w := (opened { replyLimit := 1 } ⟨"me", "me", ⟨"host", 1⟩, 0⟩ 0).run twoVisitors
    (w 4).stop.reason = some (.replyLimit .heartbeat) ∧ (w 6).stats.withheld = 0 ∧
      (w 7).stats.withheld = 1 ∧ ∃ v, v.isOpen = false ∧ v.written = [] ∧
        ∀ j, 6 < j → (w j).repliesWritten ≤ 1 ∧ (w j).visits[1]? = some v := by
  intro w
  obtain ⟨-, hrun⟩ := serves_up_to_limit { replyLimit := 1 } ⟨"me", "me", ⟨"host", 1⟩, 0⟩ false
    (by decide)
  have hstop : ∀ i < 4, ∀ reason, twoVisitors i ≠ .stop reason := by
    intro i _ reason
    unfold twoVisitors
    split <;> nofun
  have hcall : CallReading.read [heartbeatCall] = .call (.heartbeat "a") [[]] := rfl
  obtain ⟨-, hreason, -⟩ := hrun 0 twoVisitors 4
  obtain ⟨-, -, -, -, hread, -⟩ := hrun 0 twoVisitors 6
  obtain ⟨-, -, hwithheld⟩ :=
    hread 1 { arrived := [heartbeatCall] } _ _ rfl (by decide +kernel) rfl hcall
  obtain ⟨hcount, v, ho, hw, -, hsame⟩ := hwithheld rfl (by decide +kernel)
  refine ⟨?_, by decide +kernel, ?_, v, ho, hw, fun j hj => ⟨?_, hsame j hj⟩⟩
  · rw [hreason hstop, if_pos (by decide +kernel)]
  · rw [hcount]
    decide +kernel
  · exact (hrun 0 twoVisitors j).2.2.1

/-- Somebody else gives the stop before the only visitor calls. -/
def stoppedVisit : Nat → ReceptionEvent
  | 0 => .accept
  | 1 => .stop .external
  | 2 => .arrive 0 heartbeatCall
  | 3 => .read 0
  | 4 => .write 0 100
  | _ => .pass 1

/-- With replies left to give, the visitor gets one after the stop. -/
theorem stoppedVisit_replied :
    let w := (opened { replyLimit := 2 } ⟨"me", "me", ⟨"host", 1⟩, 0⟩ 0).run stoppedVisit
    (w 2).stop.isTriggered = true ∧ (w 2).visits = [{}] ∧
      CallReading.read [heartbeatCall] = .call (.heartbeat "a") [[]] ∧
      (w 5).visits.map Visit.written ≠ [[]] ∧ (w 5).repliesWritten = 1 ∧
      (w 5).stats.withheld = 0 := by
  exact ⟨by decide, by decide, rfl, by decide +kernel, by decide +kernel, by decide +kernel⟩

end ScriptedPeer.Reception
