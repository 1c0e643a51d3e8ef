import ScriptedPeer.Call.Exchange
import ScriptedPeer.Proofs.RequestLoop.Endings

/-!
# Calls that fail

A loop that does not end with its first reply goes its way whatever its calls return. To see this
the results are struck out: every call counts as acknowledged, those that have come back as well as
the one that is on its way. What is left of a step is the same step, so that two runs that differ
only in the results of their calls are the same run once these are struck out. The split of the
attempts can be read off the results afterwards.
-/

namespace ScriptedPeer

/-- Whether the results of the calls can end the loop. -/
def Cadence.heedsReplies : Cadence → Bool
  | .bounded _ _ untilFirstReply _ => untilFirstReply
  | .periodic _ | .single | .onTrigger _ => false

theorem Cadence.Continues.heedsReplies {c c' : Cadence} (h : c.Continues c') :
    c'.heedsReplies = c.heedsReplies := by
  cases h <;> rfl

/-- The call takes the same time and comes back with this result. -/
def Reaction.returning (r : Reaction) (acknowledged : Bool) : Reaction :=
  match r with
  | atOnce _ => atOnce acknowledged
  | after millis _ => after millis acknowledged
  | hangs => hangs
  | crashes => crashes

namespace CallScript

/-- The calls take the time they take, and return these results. -/
def returning (s : CallScript) (results : Nat → Except CallFault Reply) : CallScript :=
  { s with reaction := fun i => (s.reaction i).returning (results i).isOk }

def acknowledged (s : CallScript) : CallScript :=
  { s with reaction := fun i => (s.reaction i).returning true }

theorem acknowledged_returning (s : CallScript) (results : Nat → Except CallFault Reply) :
    (s.returning results).acknowledged = s.acknowledged := by
  simp only [acknowledged, returning]
  congr 1
  funext i
  cases s.reaction i <;> rfl

end CallScript

def Return.acknowledged : Return → Return
  | atOnce _ => atOnce true
  | .at time _ => .at time true
  | never => never

def Phase.acknowledged : Phase → Phase
  | calling back => calling back.acknowledged
  | waiting => waiting
  | ended why => ended why
  | crashed => crashed
  | aborted => aborted

theorem Reaction.phase_returning (r : Reaction) (now : Nat) :
    (r.returning true).phase now = (r.phase now).acknowledged := by
  cases r <;> rfl

theorem Phase.acknowledged_eq_ended {p : Phase} {why : LoopEnd} :
    p.acknowledged = ended why ↔ p = ended why := by
  cases p <;> simp [acknowledged]

/-- What the call on its way will return. -/
def Phase.result? : Phase → Option Bool
  | calling (.atOnce acknowledged) | calling (.at _ acknowledged) => some acknowledged
  | calling .never | waiting | ended _ | crashed | aborted => none

theorem Reaction.result_phase_returning {r : Reaction} {acknowledged result : Bool} {now : Nat}
    (h : ((r.returning acknowledged).phase now).result? = some result) :
    result = acknowledged := by
  cases r <;> cases h <;> rfl

def Tally.acknowledged (t : Tally) : Tally :=
  { t with successes := t.successes + t.failures, failures := 0 }

namespace RequestLoop

def acknowledged (l : RequestLoop) : RequestLoop :=
  { l with tally := l.tally.acknowledged, phase := l.phase.acknowledged }

def Action.acknowledged : Action → Action
  | receive _ => receive true
  | rest => rest
  | send => send
  | finish why => finish why
  | crash => crash

variable {l : RequestLoop}

theorem acknowledged_actionWaiting (c : Cadence) (now : Nat) (triggers : Triggers) :
    (actionWaiting c now triggers).acknowledged = actionWaiting c now triggers := by
  rcases actionWaiting_cases c now triggers with h | h | h <;> rw [h] <;> rfl

/-- What a loop does next does not depend on results. -/
theorem action_acknowledged (l : RequestLoop) (now : Nat) (stopped : Bool) (triggers : Triggers) :
    l.acknowledged.action now stopped triggers = (l.action now stopped triggers).acknowledged := by
  have hnext : l.acknowledged.phase = l.phase.acknowledged := rfl
  cases hphase : l.phase with
  | waiting =>
    have hfit : l.acknowledged.isUnfit = l.isUnfit := rfl
    have hcadence : l.acknowledged.cadence = l.cadence := rfl
    simp only [action, hnext, hphase, Phase.acknowledged, hfit, hcadence]
    split
    · rfl
    · split
      · rfl
      · exact (acknowledged_actionWaiting _ _ _).symm
  | calling back =>
    cases back with
    | atOnce _ | never =>
      simp only [action, hnext, hphase, Phase.acknowledged, Return.acknowledged,
        Action.acknowledged]
    | «at» time _ =>
      simp only [action, hnext, hphase, Phase.acknowledged, Return.acknowledged]
      split <;> rfl
  | ended _ | crashed | aborted =>
    simp only [action, hnext, hphase, Phase.acknowledged, Action.acknowledged]

theorem result_of_receive {now : Nat} {stopped : Bool} {triggers : Triggers} {result : Bool}
    (h : l.action now stopped triggers = .receive result) : l.phase.result? = some result := by
  cases hphase : l.phase with
  | waiting =>
    simp only [action, hphase] at h
    split at h
    · cases h
    · split at h
      · cases h
      · rcases actionWaiting_cases l.cadence now triggers with ha | ha | ha <;> simp [ha] at h
  | calling back =>
    cases back with
    | atOnce acknowledged =>
      simp only [action, hphase] at h
      cases h
      rfl
    | «at» time acknowledged =>
      simp only [action, hphase] at h
      split at h
      · cases h
        rfl
      · cases h
    | never => simp [action, hphase] at h
  | ended _ | crashed | aborted => simp [action, hphase] at h

theorem isCalling_acknowledged (l : RequestLoop) : l.acknowledged.isCalling = l.isCalling := by
  simp only [isCalling, acknowledged]
  cases l.phase <;> rfl

theorem isOver_acknowledged (l : RequestLoop) : l.acknowledged.isOver = l.isOver := by
  simp only [isOver, acknowledged]
  cases l.phase <;> rfl

theorem acknowledged_reserve (l : RequestLoop) (count : Nat) :
    (l.reserve count).acknowledged = l.acknowledged.reserve count := by
  by_cases h : count = 0
  · simp only [reserve, if_pos h]
  · simp only [reserve, if_neg h]
    rfl

theorem acknowledged_send (l : RequestLoop) (now : Nat) (phase : Phase) :
    (l.send now phase).acknowledged = l.acknowledged.send now phase.acknowledged := by
  simp only [send]
  rw [show l.acknowledged.profile = l.profile from rfl,
    show l.acknowledged.method = l.method from rfl, ← acknowledged_reserve]
  rfl

theorem acknowledged_count (t : Tally) (result : Bool) :
    (count t result).acknowledged = count t.acknowledged true := by
  cases result
  · simp [count, Tally.acknowledged, Nat.add_assoc]
  · simp [count, Tally.acknowledged, Nat.add_right_comm]

/-- Of the four cadences only the one that is bounded until its first reply looks at the result. -/
theorem afterCall_eq {c : Cadence} (h : c.heedsReplies = false) (result : Bool) :
    afterCall c result = afterCall c true := by
  cases c with
  | periodic _ | single | onTrigger _ => rfl
  | bounded t counter untilFirstReply atBound =>
    cases h
    rfl

theorem acknowledged_phaseAfter (ending : Option LoopEnd) :
    (phaseAfter ending).acknowledged = phaseAfter ending := by
  cases ending <;> rfl

/-- A loop that does not heed its replies goes on after a failure as after a success. -/
theorem acknowledged_receive (h : l.cadence.heedsReplies = false) (result : Bool) :
    (l.receive result).1.acknowledged = (l.acknowledged.receive true).1 ∧
      (l.receive result).2 = (l.acknowledged.receive true).2 := by
  simp only [receive, acknowledged, afterCall_eq h result, acknowledged_count,
    acknowledged_phaseAfter, true_and]
  rfl

/-- What a call that failed leads to, for any loop: the schedule is kept, and the loop goes on
unless it has no more calls to make. -/
theorem receive_false (l : RequestLoop) :
    (l.receive false).1.next = l.next ∧
    (l.receive false).1.cadence.ticker? = l.cadence.ticker? ∧
    ((l.receive false).1.phase = .waiting ∨
      l.cadence = .single ∧ (l.receive false).1.phase = .ended .singleShotDone ∨
      ∃ t counter u a, l.cadence = .bounded t counter u a ∧ counter.check.1.isExhausted = true ∧
        (l.receive false).1.phase = .ended .boundReached) := by
  obtain ⟨m, c, p, next, tally, phase⟩ := l
  cases c with
  | periodic _ | onTrigger _ => exact ⟨rfl, rfl, .inl rfl⟩
  | single => exact ⟨rfl, rfl, .inr (.inl ⟨rfl, rfl⟩)⟩
  | bounded t counter u a =>
    cases hd : counter.check.1.isExhausted with
    | false =>
      simp [receive, afterCall, hd, Cadence.ticker?, phaseAfter]
    | true =>
      refine ⟨by simp [receive], by simp [receive, afterCall, hd, Cadence.ticker?], .inr (.inr ?_)⟩
      exact ⟨t, counter, u, a, rfl, hd, by simp [receive, afterCall, hd, phaseAfter]⟩

end RequestLoop

namespace LoopWorld

variable {w w' : LoopWorld} {script : CallScript} {results results' : Nat → Except CallFault Reply}
  {schedule : Nat → Happening} {c : Cadence}

def acknowledged (w : LoopWorld) : LoopWorld := { w with loop := w.loop.acknowledged }

/-- A turn does the same where every call is acknowledged, but for the results. -/
theorem acknowledged_turn (h : w.loop.cadence.heedsReplies = false) (script : CallScript) :
    (w.turn script).acknowledged = w.acknowledged.turn script.acknowledged := by
  have ha : w.acknowledged.action = w.action.acknowledged :=
    w.loop.action_acknowledged w.now w.stop.isTriggered w.triggers
  rw [turn, turn, ha]
  cases w.action with
  | rest | finish _ | crash => rfl
  | send =>
    simp only [RequestLoop.Action.acknowledged, act, send, acknowledged, CallScript.acknowledged,
      RequestLoop.acknowledged_send, Reaction.phase_returning]
    rfl
  | receive result =>
    obtain ⟨hloop, hreason⟩ := RequestLoop.acknowledged_receive h result
    simp only [RequestLoop.Action.acknowledged, act, receive, acknowledged, hloop, hreason]

theorem acknowledged_step (h : w.loop.cadence.heedsReplies = false) (script : CallScript)
    (e : Happening) :
    (w.step script e).acknowledged = w.acknowledged.step script.acknowledged e := by
  cases e with
  | turn => exact acknowledged_turn h script
  | pass _ | stop _ | trigger | closeTriggers => rfl

/-- A run without its results is the run in which every call is acknowledged. -/
theorem acknowledged_run (hw : w.Suited c script) (ha : w.Accounted)
    (hc : c.heedsReplies = false) (schedule : Nat → Happening) (k : Nat) :
    (w.run script schedule k).acknowledged =
      w.acknowledged.run script.acknowledged schedule k := by
  induction k with
  | zero => rfl
  | succ k ih =>
    -- Results could matter through the cadence alone, and that is still of the same kind.
    have hk := (suited_run hw ha schedule k).continues.heedsReplies.trans hc
    rw [run_succ, acknowledged_step hk, ih, run_succ]

/-- The counts go by the results of the calls that have come back, and the call on its way brings
the next of them. -/
structure Returned (results : Nat → Except CallFault Reply) (w : LoopWorld) : Prop where
  successes : w.loop.tally.successes =
    (List.range w.loop.answered).countP fun i => (results i).isOk
  pending : ∀ result, w.loop.phase.result? = some result →
    result = (results w.loop.answered).isOk

/-- The outcomes of the attempts, told apart by the results of the calls. -/
structure Split (results : Nat → Except CallFault Reply) (w : LoopWorld) : Prop where
  successes : w.loop.tally.successes =
    (List.range w.loop.answered).countP fun i => (results i).isOk
  failures : w.loop.tally.failures =
    (List.range w.loop.answered).countP fun i => !(results i).isOk

/-- The successes and failures are those of the results that have come back. -/
theorem Returned.split (h : w.Returned results) : w.Split results := by
  refine ⟨h.successes, ?_⟩
  have hall := List.length_eq_countP_add_countP (fun i => (results i).isOk)
    (l := List.range w.loop.answered)
  have hnot : (List.range w.loop.answered).countP (fun i => !(results i).isOk) =
      (List.range w.loop.answered).countP fun i => ¬(results i).isOk = true := by
    congr 1
    funext i
    cases (results i).isOk <;> rfl
  rw [List.length_range, ← hnot, ← h.successes, RequestLoop.answered] at hall
  exact Nat.add_left_cancel hall

theorem returned_send (h : w.Returned results) (ha : w.Accounted)
    (hphase : w.loop.phase = .waiting) : (w.send (script.returning results)).Returned results := by
  refine ⟨?_, fun result hr => ?_⟩
  · rw [loop_send, RequestLoop.successes_send, RequestLoop.answered_send, h.successes]
  · rw [loop_send, RequestLoop.phase_send] at hr
    rw [loop_send, RequestLoop.answered_send, ← ha.of_waiting hphase]
    exact Reaction.result_phase_returning hr

theorem returned_receive (h : w.Returned results) {result : Bool}
    (ha : w.action = .receive result) : (w.receive result).Returned results := by
  -- The call that comes back is the one that the counts are up to.
  have hresult := h.pending result (RequestLoop.result_of_receive ha)
  refine ⟨?_, fun other hr => ?_⟩
  · rw [loop_receive, RequestLoop.answered_receive, List.range_succ, List.countP_append,
      List.countP_singleton, ← h.successes, ← hresult]
    exact RequestLoop.successes_count _ _
  · rcases w.loop.phase_receive result with hp | ⟨why, hp⟩ <;>
      simp [loop_receive, hp, Phase.result?] at hr

theorem returned_turn (h : w.Returned results) (ha : w.Accounted) :
    (w.turn (script.returning results)).Returned results := by
  rcases w.action_cases with ⟨hrest, -⟩ | ⟨hsend, hphase, -⟩ | ⟨-, result, hreceive⟩ |
    ⟨-, hcrash | ⟨why, hfinish⟩⟩
  · rwa [turn_of_rest hrest]
  · rw [turn, hsend, act]
    exact returned_send h ha hphase
  · rw [turn, hreceive, act]
    exact returned_receive h hreceive
  · rw [turn, hcrash, act]
    exact ⟨h.successes, fun _ hr => by cases hr⟩
  · rw [turn, hfinish, act]
    exact ⟨h.successes, fun _ hr => by cases hr⟩

/-- At any time the results that a loop has counted are those its calls were to return. -/
theorem returned_run (h : w.Returned results) (ha : w.Accounted) (schedule : Nat → Happening)
    (k : Nat) : (w.run (script.returning results) schedule k).Returned results := by
  induction k with
  | zero => exact h
  | succ k ih =>
    rw [run_succ]
    cases schedule k with
    | turn => exact returned_turn ih (accounted_run ha _ schedule k)
    | pass _ | stop _ | trigger | closeTriggers => exact ⟨ih.successes, ih.pending⟩

theorem returned_started (m : Method) (c : Cadence) (p : Profile) (now : Nat) (stop : StopSignal)
    (triggers : Triggers) (results : Nat → Except CallFault Reply) :
    (started m c p now stop triggers).Returned results :=
  ⟨rfl, nofun⟩

/-- Two worlds at the same point of the same course: nothing tells them apart but which calls have
failed. -/
structure SameCourse (w w' : LoopWorld) : Prop where
  now : w'.now = w.now
  stop : w'.stop = w.stop
  triggers : w'.triggers = w.triggers
  /-- The same calls, at the same times, with the same numbers. -/
  sent : w'.sent = w.sent
  next : w'.loop.next = w.loop.next
  cadence : w'.loop.cadence = w.loop.cadence
  attempts : w'.loop.tally.attempts = w.loop.tally.attempts
  lastSequence : w'.loop.tally.lastSequence = w.loop.tally.lastSequence
  answered : w'.loop.answered = w.loop.answered
  ended : ∀ why, w'.loop.phase = .ended why ↔ w.loop.phase = .ended why
  isCalling : w'.loop.isCalling = w.loop.isCalling
  isOver : w'.loop.isOver = w.loop.isOver

/-- Runs that are alike once all calls are acknowledged send the same at the same times, and end
alike. -/
theorem sameCourse_of_acknowledged (h : w'.acknowledged = w.acknowledged) : w.SameCourse w' := by
  have hloop : w'.loop.acknowledged = w.loop.acknowledged := congrArg LoopWorld.loop h
  have htally : w'.loop.tally.acknowledged = w.loop.tally.acknowledged :=
    congrArg RequestLoop.tally hloop
  have hphase : w'.loop.phase.acknowledged = w.loop.phase.acknowledged :=
    congrArg RequestLoop.phase hloop
  exact {
    now := (congrArg LoopWorld.now h :)
    stop := (congrArg LoopWorld.stop h :)
    triggers := (congrArg LoopWorld.triggers h :)
    sent := (congrArg LoopWorld.sent h :)
    next := (congrArg RequestLoop.next hloop :)
    cadence := (congrArg RequestLoop.cadence hloop :)
    attempts := (congrArg Tally.attempts htally :)
    lastSequence := (congrArg Tally.lastSequence htally :)
    answered := (congrArg Tally.successes htally :)
    ended := fun why => by
      rw [← Phase.acknowledged_eq_ended, hphase, Phase.acknowledged_eq_ended]
    isCalling := by
      rw [← RequestLoop.isCalling_acknowledged, hloop, RequestLoop.isCalling_acknowledged]
    isOver := by
      rw [← RequestLoop.isOver_acknowledged, hloop, RequestLoop.isOver_acknowledged] }

/-- Whatever the calls return, a loop that does not heed it takes the same course. -/
theorem sameCourse_run (hw : w.Suited c (script.returning results))
    (hw' : w.Suited c (script.returning results')) (ha : w.Accounted)
    (hc : c.heedsReplies = false) (schedule : Nat → Happening) (k : Nat) :
    (w.run (script.returning results) schedule k).SameCourse
      (w.run (script.returning results') schedule k) := by
  apply sameCourse_of_acknowledged
  rw [acknowledged_run hw ha hc, acknowledged_run hw' ha hc, CallScript.acknowledged_returning,
    CallScript.acknowledged_returning]

/-- Nothing is sent again and no tick is moved. The loop goes on, unless it was to make one call or
has used up its bound. -/
structure Undeterred (w w' : LoopWorld) : Prop where
  now : w'.now = w.now
  sent : w'.sent = w.sent
  next : w'.loop.next = w.loop.next
  ticker : w'.loop.cadence.ticker? = w.loop.cadence.ticker?
  phase : w'.loop.phase = .waiting ∨
    w.loop.cadence = .single ∧ w'.loop.phase = .ended .singleShotDone ∨
    ∃ t counter u a, w.loop.cadence = .bounded t counter u a ∧
      counter.check.1.isExhausted = true ∧ w'.loop.phase = .ended .boundReached

/-- After a failed call a loop goes on as before. -/
theorem undeterred_of_failure (h : w.action = .receive false) (script : CallScript) :
    w.Undeterred (w.turn script) := by
  obtain ⟨hnext, hticker, hphase⟩ := w.loop.receive_false
  rw [turn, h, act]
  exact ⟨rfl, rfl, hnext, hticker, hphase⟩

/-- Two runs of a loop that does not end with its first reply, whose calls take the same time and
return what they like: at every moment they have made the same calls at the same times, they end for
the same reason, and the stop is as it is in both. Each attempt is one request. The counts go by the
results, and a call that failed is followed by neither another try nor a delay, nor does it end the
loop. -/
theorem run_regardless_of_results (m : Method) (c : Cadence) (p : Profile) (start : Nat)
    (stop : StopSignal) (triggers : Triggers) (script : CallScript)
    (results results' : Nat → Except CallFault Reply) (schedule : Nat → Happening)
    (hc : c.heedsReplies = false) :
    let w := (started m c p start stop triggers).run (script.returning results) schedule
    let w' := (started m c p start stop triggers).run (script.returning results') schedule
    ∀ k, (w k).SameCourse (w' k) ∧
      (w k).loop.tally.attempts = (w k).sent.length ∧
      (w k).Split results ∧
      (w' k).Split results' ∧
      ((w k).action = .receive false →
        (w k).Undeterred ((w k).turn (script.returning results))) := by
  intro w w' k
  have ha : (started m c p start stop triggers).Accounted := accounted_started ..
  have hsame : (w k).SameCourse (w' k) :=
    sameCourse_run (suited_started ..) (suited_started ..) ha hc schedule k
  have hr : (w k).Returned results := returned_run (returned_started ..) ha schedule k
  have hr' : (w' k).Returned results' := returned_run (returned_started ..) ha schedule k
  exact ⟨hsame, (accounted_run ha _ schedule k).attempts, hr.split, hr'.split,
    fun hfailed => undeterred_of_failure hfailed _⟩

/-- At most two Tells, ten milliseconds apart, and then the stop. -/
def twoTells : Cadence := .bounded { interval := 10 } { limit := 2 } false .stopProcess

def firstWithheld : Nat → Except CallFault Reply
  | 0 => .error (.replyWithheld .tell)
  | _ => .ok (.tell "peer")

def allReplied : Nat → Except CallFault Reply := fun _ => .ok (.tell "peer")

/-- Two calls are sent, and each comes back while the next tick is due. -/
def twoRounds : Nat → Happening
  | 1 | 4 => .pass 10
  | _ => .turn

def tellingTwice (results : Nat → Except CallFault Reply) : Nat → LoopWorld :=
  (started .tell twoTells ⟨"me", "me", ⟨"host", 1⟩, 0⟩ 0 {} {}).run
    (CallScript.returning ⟨fun _ => .after 3 true, fun _ _ => ⟨0⟩⟩ results) twoRounds

/-- Two Tells of which the first is withheld or not: the course is the same, and only the counts
differ. -/
theorem tellingTwice_ended :
    twoTells.heedsReplies = false ∧
    (tellingTwice firstWithheld 6).loop.phase = .ended .boundReached ∧
    (tellingTwice allReplied 6).loop.phase = .ended .boundReached ∧
    (tellingTwice allReplied 6).stop.reason = some (.requestBound .tell) ∧
    (tellingTwice firstWithheld 6).loop.tally = ⟨2, 1, 1, some ⟨2⟩⟩ ∧
    (tellingTwice allReplied 6).loop.tally = ⟨2, 2, 0, some ⟨2⟩⟩ := by
  obtain ⟨hsame, -⟩ := run_regardless_of_results .tell twoTells ⟨"me", "me", ⟨"host", 1⟩, 0⟩ 0 {} {}
    ⟨fun _ => .after 3 true, fun _ _ => ⟨0⟩⟩ firstWithheld allReplied twoRounds rfl 6
  have hended : (tellingTwice firstWithheld 6).loop.phase = .ended .boundReached := by decide
  have hstop : (tellingTwice firstWithheld 6).stop.reason = some (.requestBound .tell) := by decide
  refine ⟨rfl, hended, (hsame.ended _).mpr hended, ?_, by decide, by decide⟩
  exact (congrArg StopSignal.reason hsame.stop).trans hstop

end LoopWorld
end ScriptedPeer
