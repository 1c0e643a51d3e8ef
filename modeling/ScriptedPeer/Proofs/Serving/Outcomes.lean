import ScriptedPeer.Proofs.Serving.Visits

/-!
# What visits come to

A visit comes to one outcome, and the counts of a server are those of its outcomes. Which outcome it
is can be seen from the connection that is left behind: from what has arrived on it, what the
service table has answered, and what has been written. Handlers may break down here. A call of
theirs closes the connection, and nothing but the connection is counted.
-/

namespace ScriptedPeer

open Wire

inductive VisitOutcome where
  /-- All of the answer has been written, or it was withheld. -/
  | answered (response : Response)
  /-- The answer is too large to be written. -/
  | unwritten
  /-- What has arrived is no call. -/
  | unread
  /-- The connection broke. -/
  | lost
  /-- The other end has closed before its first byte. -/
  | silent
  /-- The handler of the call broke down. -/
  | crashed
  /-- Given up at the end of a drain. -/
  | abandoned
  deriving DecidableEq, Repr

namespace VisitOutcome

def isReplied : VisitOutcome → Bool
  | answered response => response.isReply
  | unwritten | unread | lost | silent | crashed | abandoned => false

def isWithheld : VisitOutcome → Bool
  | answered response => response = .withhold
  | unwritten | unread | lost | silent | crashed | abandoned => false

def isUnimplemented : VisitOutcome → Bool
  | answered response => !response.isReply && response ≠ .withhold
  | unwritten | unread | lost | silent | crashed | abandoned => false

def isFailed : VisitOutcome → Bool
  | unwritten | unread | lost => true
  | answered _ | silent | crashed | abandoned => false

/-- The counts after a visit that came to this outcome. -/
def counted (stats : ServerStats) : VisitOutcome → ServerStats
  | answered response => Server.counted stats response
  | unwritten | unread | lost => { stats with failed := stats.failed + 1 }
  | silent | crashed | abandoned => stats

end VisitOutcome

/-- The counts of these visits. One that has not come to an outcome yet is a connection only. -/
def tally (ledger : List (Option VisitOutcome)) : ServerStats where
  connections := ledger.length
  replied := ledger.countP (·.any VisitOutcome.isReplied)
  withheld := ledger.countP (·.any VisitOutcome.isWithheld)
  unimplemented := ledger.countP (·.any VisitOutcome.isUnimplemented)
  failed := ledger.countP (·.any VisitOutcome.isFailed)

theorem tally_concat (ledger : List (Option VisitOutcome)) :
    tally (ledger ++ [none]) =
      { tally ledger with connections := (tally ledger).connections + 1 } := by
  simp [tally]

theorem countP_settle {ledger : List (Option VisitOutcome)} {n : Nat} (h : ledger[n]? = some none)
    (o : VisitOutcome) (p : VisitOutcome → Bool) :
    (ledger.set n (some o)).countP (·.any p) =
      ledger.countP (·.any p) + if p o then 1 else 0 := by
  have hset := countP_set_add (p := fun o : Option VisitOutcome => o.any p) h (some o)
  simpa using hset

/-- A visit that comes to its outcome is counted by it. -/
theorem tally_settle {ledger : List (Option VisitOutcome)} {n : Nat} (h : ledger[n]? = some none)
    (o : VisitOutcome) : tally (ledger.set n (some o)) = o.counted (tally ledger) := by
  simp only [tally, List.length_set, countP_settle h]
  cases o with
  | answered response => cases response <;> rfl
  | unwritten | unread | lost | silent | crashed | abandoned => rfl

/-- Visits that are given up are not counted. -/
theorem tally_abandon (ledger : List (Option VisitOutcome)) :
    tally (ledger.map (·.or (some .abandoned))) = tally ledger := by
  have hcount (p : VisitOutcome → Bool) (hp : p .abandoned = false) :
      (ledger.map (·.or (some .abandoned))).countP (·.any p) = ledger.countP (·.any p) := by
    rw [List.countP_map]
    apply List.countP_congr
    rintro (_ | o) - <;> simp [hp]
  simp only [tally, List.length_map, hcount VisitOutcome.isReplied rfl,
    hcount VisitOutcome.isWithheld rfl, hcount VisitOutcome.isUnimplemented rfl,
    hcount VisitOutcome.isFailed rfl]

/-- Every visit is counted once. -/
theorem connections_tally (ledger : List (Option VisitOutcome)) :
    (tally ledger).connections = (tally ledger).replied + (tally ledger).withheld +
      (tally ledger).unimplemented + (tally ledger).failed + ledger.count (some .silent) +
      ledger.count (some .crashed) + ledger.count (some .abandoned) + ledger.count none := by
  induction ledger with
  | nil => rfl
  | cons o ledger ih =>
    simp only [tally, List.length_cons, List.countP_cons, List.count_cons] at ih ⊢
    rw [ih]
    cases o with
    | none => simp +arith
    | some o =>
      cases o with
      | answered response => cases response <;> simp +arith [VisitOutcome.isReplied,
          VisitOutcome.isWithheld, VisitOutcome.isUnimplemented, VisitOutcome.isFailed,
          Response.isReply]
      | unwritten | unread | lost | silent | crashed | abandoned =>
        simp +arith [VisitOutcome.isReplied, VisitOutcome.isWithheld,
          VisitOutcome.isUnimplemented, VisitOutcome.isFailed]

/-- The front of a frame holds the frame when it is all of it, and otherwise nothing. -/
theorem frames_of_front {f : ServerFrame} {front left : Bytes}
    (h : Frame.encode .serverFrame f = .ok (front ++ left)) :
    (Frame.decodeStream Layout.serverFrame front).1.map Prod.fst =
      if left = [] then [f] else [] := by
  obtain ⟨hfits, hbytes⟩ := Frame.encode_eq_ok h
  by_cases hleft : left = []
  · have hd := Frame.decode_bytes_append hfits (serverFrame_readsBack_of_fits hfits) []
    rw [hleft, List.append_nil] at hbytes
    rw [List.append_nil, ← hbytes] at hd
    rw [if_pos hleft, Frame.decodeStream_of_ok hd, List.drop_length, Frame.decodeStream_nil]
    rfl
  · rw [if_neg hleft]
    by_cases hfront : front = []
    · rw [hfront, Frame.decodeStream_nil]
      rfl
    · rw [Frame.decodeStream_of_error hfront (Frame.decode_of_cut hfits hleft hbytes)]
      rfl

/-- The frame that an answer is written as, if it is not withheld. -/
def Response.frame? : Response → Option ServerFrame
  | reply r => some (.reply r)
  | unimplemented m => some (.unimplemented m)
  | withhold => none

namespace Visit

/-- A frame of this kind has been written. -/
def wrote (p : ServerFrame → Bool) (v : Visit) : Bool :=
  ((Frame.decodeStream Layout.serverFrame v.written).1.map Prod.fst).any p

theorem wrote_of_nothing {v : Visit} (h : v.written = []) (p : ServerFrame → Bool) :
    v.wrote p = false := by
  rw [wrote, h, Frame.decodeStream_nil]
  rfl

/-- A frame has been written when nothing of it is left. -/
theorem wrote_of_front {v : Visit} {response : Response} {left : Bytes}
    (h : Server.encodeResponse response = .ok (v.written ++ left)) (p : ServerFrame → Bool) :
    v.wrote p = (decide (left = []) && response.frame?.any p) := by
  have hframe {f : ServerFrame} (hf : Frame.encode .serverFrame f = .ok (v.written ++ left)) :
      v.wrote p = (decide (left = []) && p f) := by
    rw [wrote, frames_of_front hf]
    split
    · next hleft => simp [hleft]
    · next hleft => simp [hleft]
  cases response with
  | reply r => exact hframe h
  | unimplemented m => exact hframe h
  | withhold =>
    obtain ⟨hw, -⟩ := List.append_eq_nil_iff.mp (Except.ok.inj h).symm
    rw [wrote_of_nothing hw, Response.frame?, Option.any_none, Bool.and_false]

/-- Some of the answer, if there is one, has not been written. -/
def Unfinished (v : Visit) : Prop :=
  match v.answer? with
  | none => v.written = []
  | some response =>
    ∃ left, left ≠ [] ∧ Server.encodeResponse response = .ok (v.written ++ left)

/-- An open connection has not had its answer in full. -/
theorem unfinished_of_open {v : Visit} (h : v.Faithful) (ho : v.isOpen = true) :
    v.Unfinished := by
  cases hs : v.stage with
  | reading =>
    simp only [Faithful, hs] at h
    simpa only [Unfinished, answer?, hs] using h
  | writing response left =>
    simp only [Faithful, hs] at h
    simpa only [Unfinished, answer?, hs] using ⟨left, h⟩
  | closed _ => simp [isOpen, hs] at ho

/-- Of an answer that is not complete no frame was written. -/
theorem Unfinished.wrote {v : Visit} (h : v.Unfinished) (p : ServerFrame → Bool) :
    v.wrote p = false := by
  unfold Unfinished at h
  split at h
  · exact wrote_of_nothing h p
  · obtain ⟨left, hleft, he⟩ := h
    rw [wrote_of_front he, decide_eq_false hleft, Bool.false_and]

theorem Unfinished.answer?_ne_withhold {v : Visit} (h : v.Unfinished) :
    v.answer? ≠ some .withhold := by
  intro ha
  simp only [Unfinished, ha] at h
  obtain ⟨left, hleft, he⟩ := h
  exact hleft (List.append_eq_nil_iff.mp (Except.ok.inj he).symm).2

/-- What has arrived is a call. -/
def IsCalled (v : Visit) : Prop := ∃ r rest, CallReading.read v.arrived = .call r rest

/-- A visit that goes on: what has been written is the front of the answer, and there is an answer
only to a call. -/
structure Ongoing (v : Visit) : Prop where
  isOpen : v.isOpen = true
  faithful : v.Faithful
  called : v.stage ≠ .reading → v.IsCalled

theorem Ongoing.unfinished {v : Visit} (h : v.Ongoing) : v.Unfinished :=
  unfinished_of_open h.faithful h.isOpen

/-- What a visit has come to, as it can be seen from what is left of it, when its connection may
have broken and may have been given up. -/
inductive CameTo (broken : List Method) (isReset isGivenUp : Prop) (v : Visit) :
    Option VisitOutcome → Prop
  | ongoing (h : v.Ongoing) : CameTo broken isReset isGivenUp v none
  | answered {response : Response} (hs : v.stage = .closed (some response)) (hr : v.IsCalled)
      (hw : Server.encodeResponse response = .ok v.written) :
      CameTo broken isReset isGivenUp v (some (.answered response))
  | unwritten {response : Response} {fault : Wire.Fault} (hs : v.stage = .closed (some response))
      (hr : v.IsCalled) (he : Server.encodeResponse response = .error fault)
      (hw : v.written = []) :
      CameTo broken isReset isGivenUp v (some .unwritten)
  | unread {fault : CallFault} (hs : v.stage = .closed none)
      (hr : (CallReading.read v.arrived).atEnd = .error fault) (hw : v.written = []) :
      CameTo broken isReset isGivenUp v (some .unread)
  | silent (hs : v.stage = .closed none) (hr : v.arrived.flatten = []) (he : v.isEnded = true)
      (hw : v.written = []) : CameTo broken isReset isGivenUp v (some .silent)
  | crashed {r : Request} {rest : Pieces} (hs : v.stage = .closed none)
      (hr : CallReading.read v.arrived = .call r rest) (hb : r.method ∈ broken)
      (hw : v.written = []) : CameTo broken isReset isGivenUp v (some .crashed)
  | lost (h : isReset) (ho : v.isOpen = false) (hu : v.Unfinished) :
      CameTo broken isReset isGivenUp v (some .lost)
  | abandoned (h : isGivenUp) (ho : v.isOpen = false) (hu : v.Unfinished) :
      CameTo broken isReset isGivenUp v (some .abandoned)

variable {broken : List Method} {isReset isGivenUp : Prop} {v : Visit} {o : Option VisitOutcome}

theorem CameTo.mono (h : v.CameTo broken isReset isGivenUp o) {isReset' isGivenUp' : Prop}
    (hr : isReset → isReset') (hg : isGivenUp → isGivenUp') :
    v.CameTo broken isReset' isGivenUp' o := by
  cases h with
  | ongoing h => exact .ongoing h
  | answered hs hr hw => exact .answered hs hr hw
  | unwritten hs hr he hw => exact .unwritten hs hr he hw
  | unread hs hr hw => exact .unread hs hr hw
  | silent hs hr he hw => exact .silent hs hr he hw
  | crashed hs hr hb hw => exact .crashed hs hr hb hw
  | lost h ho hu => exact .lost (hr h) ho hu
  | abandoned h ho hu => exact .abandoned (hg h) ho hu

/-- A visit has come to an outcome when its connection is closed. -/
theorem CameTo.isOpen (h : v.CameTo broken isReset isGivenUp o) : v.isOpen = o.isNone := by
  cases h with
  | ongoing h => exact h.isOpen
  | answered hs _ _ | unwritten hs _ _ _ | unread hs _ _ | silent hs _ _ _ | crashed hs _ _ _ =>
    simp only [Visit.isOpen, hs, Option.isNone_some]
  | lost _ ho _ | abandoned _ ho _ => exact ho

/-- A frame has been written only on a connection that was answered with it. -/
theorem CameTo.wrote (h : v.CameTo broken isReset isGivenUp o) (p : ServerFrame → Bool) :
    v.wrote p = o.any fun
      | .answered response => response.frame?.any p
      | _ => false := by
  cases h with
  | ongoing h => exact h.unfinished.wrote p
  | answered _ _ hw =>
    rw [← List.append_nil v.written] at hw
    rw [wrote_of_front hw]
    rfl
  | unwritten _ _ _ hw | unread _ _ hw | silent _ _ _ hw | crashed _ _ _ hw =>
    exact wrote_of_nothing hw p
  | lost _ _ hu | abandoned _ _ hu => exact hu.wrote p

/-- A reply was written just if the visit counts as replied to. -/
theorem CameTo.wrote_reply (h : v.CameTo broken isReset isGivenUp o) :
    v.wrote ServerFrame.isReply = o.any VisitOutcome.isReplied := by
  rw [h.wrote]
  cases o with
  | none => rfl
  | some o =>
    cases o with
    | answered response => cases response <;> rfl
    | unwritten | unread | lost | silent | crashed | abandoned => rfl

theorem CameTo.wrote_unimplemented (h : v.CameTo broken isReset isGivenUp o) :
    v.wrote (!·.isReply) = o.any VisitOutcome.isUnimplemented := by
  rw [h.wrote]
  cases o with
  | none => rfl
  | some o =>
    cases o with
    | answered response => cases response <;> rfl
    | unwritten | unread | lost | silent | crashed | abandoned => rfl

theorem CameTo.answer?_eq_withhold (h : v.CameTo broken isReset isGivenUp o) :
    decide (v.answer? = some .withhold) = o.any VisitOutcome.isWithheld := by
  cases h with
  | ongoing h => exact decide_eq_false h.unfinished.answer?_ne_withhold
  | answered hs _ _ =>
    simp only [answer?, hs, Option.some.injEq, Option.any_some, VisitOutcome.isWithheld]
  | @unwritten response fault hs _ he _ =>
    have hne : response ≠ .withhold := by
      rintro rfl
      cases he
    simpa [answer?, hs, VisitOutcome.isWithheld] using hne
  | unread hs _ _ | silent hs _ _ _ | crashed hs _ _ _ =>
    simp [answer?, hs, VisitOutcome.isWithheld]
  | lost _ _ hu | abandoned _ _ hu => exact decide_eq_false hu.answer?_ne_withhold

end Visit
end ScriptedPeer
