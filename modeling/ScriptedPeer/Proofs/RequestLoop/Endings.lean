import ScriptedPeer.Proofs.RequestLoop.Stopping

/-!
# How loops end

A loop ends for a reason that goes with its cadence, and with each call it counts one attempt and,
once the call is back, one outcome. A loop that waits for triggers makes one attempt for each of
them: when it ends because no more will come, all that were raised have been answered.
-/

namespace ScriptedPeer

namespace Cadence

/-- The cadence at another moment of the same loop. -/
inductive Continues : Cadence → Cadence → Prop
  | periodic {t t' : Ticker} (h : t'.interval = t.interval) : Continues (.periodic t) (.periodic t')
  | bounded {t t' : Ticker} {c c' : BoundedCounter} {u : Bool} {a : AtBound}
      (h : t'.interval = t.interval) : Continues (.bounded t c u a) (.bounded t' c' u a)
  | single : Continues .single .single
  | onTrigger (source : TriggerSource) : Continues (.onTrigger source) (.onTrigger source)

variable {c c' : Cadence}

/-- A cadence goes on as long as its ticker keeps the interval. -/
theorem Continues.mapTicker (h : Continues c c') {f : Ticker → Ticker}
    (hf : ∀ t, (f t).interval = t.interval) : Continues c (c'.mapTicker f) := by
  cases h with
  | periodic h => exact .periodic ((hf _).trans h)
  | bounded h => exact .bounded ((hf _).trans h)
  | single => exact .single
  | onTrigger source => exact .onTrigger source

theorem continues_start (c : Cadence) (now : Nat) : Continues c (c.mapTicker (·.start now)) := by
  cases c with
  | periodic t => exact .periodic rfl
  | bounded t counter untilFirstReply atBound => exact .bounded rfl
  | single => exact .single
  | onTrigger source => exact .onTrigger source

/-- A call changes nothing of a cadence but its count. -/
theorem Continues.afterCall (h : Continues c c') (acknowledged : Bool) :
    Continues c (RequestLoop.afterCall c' acknowledged).1 := by
  cases h with
  | periodic h => exact .periodic h
  | single => exact .single
  | onTrigger source => exact .onTrigger source
  | bounded h =>
    simp only [RequestLoop.afterCall]
    split
    · exact .bounded h
    · split <;> exact .bounded h

theorem Continues.eq_single (h : Continues c c') : c' = .single ↔ c = .single := by
  cases h <;> simp

theorem Continues.eq_onTrigger (h : Continues c c') (source : TriggerSource) :
    c' = .onTrigger source ↔ c = .onTrigger source := by
  cases h <;> simp

/-- The interval of the cadence, where it has one, is zero. -/
def isUnfit (c : Cadence) : Bool := c.ticker?.any (·.interval = 0)

theorem Continues.isUnfit (h : Continues c c') : c'.isUnfit = c.isUnfit := by
  cases h with
  | periodic h | bounded h => simp only [Cadence.isUnfit, ticker?, Option.any_some, h]
  | single | onTrigger _ => rfl

end Cadence

/-- The reason goes with the cadence. -/
def LoopEnd.suits (why : LoopEnd) (c : Cadence) : Bool :=
  match why, c with
  | stopped, _ | boundReached, .bounded .. => true
  | firstReply, .bounded _ _ untilFirstReply _ => untilFirstReply
  | singleShotDone, .single | triggerClosed, .onTrigger _ => true
  | _, _ => false

theorem LoopEnd.suits_of_continues {c c' : Cadence} (h : c.Continues c') (why : LoopEnd) :
    why.suits c' = why.suits c := by
  cases h <;> cases why <;> rfl

/-- None of the counts is less than it was. -/
structure Tally.Grows (t t' : Tally) : Prop where
  attempts : t.attempts ≤ t'.attempts
  successes : t.successes ≤ t'.successes
  failures : t.failures ≤ t'.failures

namespace Tally.Grows

variable {t t₁ t₂ t₃ : Tally}

theorem refl (t : Tally) : t.Grows t := ⟨Nat.le_refl _, Nat.le_refl _, Nat.le_refl _⟩

theorem trans (h : t₁.Grows t₂) (h' : t₂.Grows t₃) : t₁.Grows t₃ where
  attempts := Nat.le_trans h.attempts h'.attempts
  successes := Nat.le_trans h.successes h'.successes
  failures := Nat.le_trans h.failures h'.failures

end Tally.Grows

/-- Nobody has closed the triggers yet. -/
def Triggers.openAt (t : Triggers) (schedule : Nat → Happening) (k : Nat) : Bool :=
  t.isOpen && (List.range k).all fun i => schedule i ≠ .closeTriggers

/-- How many triggers were on their way at first or have been raised before they were closed. -/
def Triggers.raised (t : Triggers) (schedule : Nat → Happening) (k : Nat) : Nat :=
  t.pending + (List.range k).countP fun i => schedule i = .trigger && t.openAt schedule i

namespace Triggers

theorem openAt_succ (t : Triggers) (schedule : Nat → Happening) (k : Nat) :
    t.openAt schedule (k + 1) = (t.openAt schedule k && schedule k ≠ .closeTriggers) := by
  simp only [openAt, List.range_succ, List.all_append, List.all_cons, List.all_nil, Bool.and_true,
    Bool.and_assoc]

theorem raised_succ (t : Triggers) (schedule : Nat → Happening) (k : Nat) :
    t.raised schedule (k + 1) =
      t.raised schedule k + if schedule k = .trigger ∧ t.openAt schedule k then 1 else 0 := by
  simp only [raised, List.range_succ, List.countP_append, List.countP_singleton, Bool.and_eq_true,
    decide_eq_true_eq, Nat.add_assoc]

end Triggers

namespace RequestLoop

/-- Between two calls only a loop on triggers comes to an end of its own, when no trigger is left to
come. -/
theorem actionWaiting_eq_finish {c : Cadence} {now : Nat} {triggers : Triggers} {why : LoopEnd}
    (h : actionWaiting c now triggers = .finish why) :
    why = .triggerClosed ∧ (c = .onTrigger .closed ∨
      c = .onTrigger .shared ∧ triggers.pending = 0 ∧ triggers.isOpen = false) := by
  cases c with
  | periodic t | bounded t counter untilFirstReply atBound =>
    simp only [actionWaiting] at h
    split at h <;> cases h
  | single => cases h
  | onTrigger source =>
    cases source with
    | closed =>
      cases h
      exact ⟨rfl, .inl rfl⟩
    | shared =>
      simp only [actionWaiting] at h
      split at h
      · cases h
      · next hnone =>
        split at h
        · cases h
        · next hclosed =>
          cases h
          exact ⟨rfl, .inr ⟨rfl, Nat.eq_zero_of_not_pos hnone, Bool.eq_false_iff.mpr hclosed⟩⟩

theorem actionWaiting_eq_send {source : TriggerSource} {now : Nat} {triggers : Triggers}
    (h : actionWaiting (.onTrigger source) now triggers = .send) :
    source = .shared ∧ 0 < triggers.pending := by
  cases source with
  | closed => cases h
  | shared =>
    simp only [actionWaiting] at h
    split at h
    · next hpos => exact ⟨rfl, hpos⟩
    · split at h <;> cases h

/-- When a call ends its loop, the reason goes with the cadence. -/
theorem suits_of_afterCall {c : Cadence} {acknowledged : Bool} {why : LoopEnd}
    (h : (afterCall c acknowledged).2.1 = some why) :
    why.suits c = true ∧ why ≠ .triggerClosed := by
  cases c with
  | periodic _ | onTrigger _ => cases h
  | single =>
    cases h
    exact ⟨rfl, nofun⟩
  | bounded t counter untilFirstReply atBound =>
    simp only [afterCall] at h
    split at h
    · next hreply =>
      rw [(Bool.and_eq_true_iff.mp hreply).1]
      cases h
      exact ⟨rfl, nofun⟩
    · split at h
      · cases h
        exact ⟨rfl, nofun⟩
      · cases h

theorem phase_receive_eq (l : RequestLoop) (acknowledged : Bool) :
    (l.receive acknowledged).1.phase = phaseAfter (afterCall l.cadence acknowledged).2.1 := rfl

/-- An answer ends a loop only in a way that suits its cadence, and never for want of triggers. -/
theorem ending_of_receive {l : RequestLoop} {acknowledged : Bool} {why : LoopEnd}
    (h : (l.receive acknowledged).1.phase = .ended why) :
    why.suits l.cadence = true ∧ why ≠ .triggerClosed := by
  rw [phase_receive_eq] at h
  cases hending : (afterCall l.cadence acknowledged).2.1 with
  | none =>
    rw [hending] at h
    cases h
  | some ending =>
    rw [hending] at h
    cases h
    exact suits_of_afterCall hending

end RequestLoop

namespace LoopWorld

variable {w : LoopWorld} {c : Cadence} {script : CallScript} {first : Triggers}
  {schedule : Nat → Happening} {k : Nat}

/-- What a loop that waits for something does, when it does not see the stop. -/
theorem action_of_waiting (hphase : w.loop.phase = .waiting) (hfit : w.loop.isUnfit = false)
    (hs : w.stop.isTriggered = false) :
    w.action = RequestLoop.actionWaiting w.loop.cadence w.now w.triggers := by
  simp only [action, RequestLoop.action, hphase, hfit, hs, Bool.false_eq_true, if_false]

/-- Between two calls a loop breaks down only if its interval is zero. -/
theorem isUnfit_of_crash (hphase : w.loop.phase = .waiting) (h : w.action = .crash) :
    w.loop.isUnfit = true := by
  cases hfit : w.loop.isUnfit with
  | true => rfl
  | false =>
    cases hs : w.stop.isTriggered with
    | true => simp [action, RequestLoop.action, hphase, hfit, hs] at h
    | false =>
      rw [action_of_waiting hphase hfit hs] at h
      rcases RequestLoop.actionWaiting_cases w.loop.cadence w.now w.triggers with ha | ha | ha <;>
        simp [ha] at h

/-- A loop that comes to an end between two calls has seen the stop, or nothing more will come. -/
theorem finish_cases (hphase : w.loop.phase = .waiting) {why : LoopEnd}
    (h : w.action = .finish why) :
    why = .stopped ∨ why = .triggerClosed ∧ (w.loop.cadence = .onTrigger .closed ∨
      w.loop.cadence = .onTrigger .shared ∧ w.triggers.pending = 0 ∧
        w.triggers.isOpen = false) := by
  cases hfit : w.loop.isUnfit with
  | true => simp [action, RequestLoop.action, hphase, hfit] at h
  | false =>
    cases hs : w.stop.isTriggered with
    | true =>
      left
      simpa [action, RequestLoop.action, hphase, hfit, hs] using h.symm
    | false =>
      right
      rw [action_of_waiting hphase hfit hs] at h
      exact RequestLoop.actionWaiting_eq_finish h

/-- A loop that waits for triggers sends only when there is one. -/
theorem pending_of_send (hphase : w.loop.phase = .waiting) {source : TriggerSource}
    (hc : w.loop.cadence = .onTrigger source) (h : w.action = .send) :
    source = .shared ∧ 0 < w.triggers.pending := by
  have hfit : w.loop.isUnfit = false := by
    simp only [RequestLoop.isUnfit, hc, Cadence.ticker?, Option.any_none]
  cases hs : w.stop.isTriggered with
  | true => simp [action, RequestLoop.action, hphase, hfit, hs] at h
  | false =>
    rw [action_of_waiting hphase hfit hs, hc] at h
    exact RequestLoop.actionWaiting_eq_send h

theorem grows_turn (w : LoopWorld) (script : CallScript) :
    w.loop.tally.Grows (w.turn script).loop.tally := by
  rcases w.action_cases with ⟨ha, -⟩ | ⟨ha, -⟩ | ⟨-, acknowledged, ha⟩ | ⟨-, ha | ⟨why, ha⟩⟩
  · rw [turn_of_rest ha]
    exact .refl _
  · rw [turn, ha, act, loop_send]
    refine ⟨?_, ?_, ?_⟩ <;> simp
  · rw [turn, ha, act]
    refine ⟨?_, ?_, ?_⟩ <;> simp [RequestLoop.receive]
  · rw [turn, ha, act]
    exact .refl _
  · rw [turn, ha, act]
    exact .refl _

/-- From one time to a later one the counts of a loop only grow. -/
theorem grows_run (w : LoopWorld) (script : CallScript) (schedule : Nat → Happening) {k j : Nat}
    (hkj : k ≤ j) :
    (w.run script schedule k).loop.tally.Grows (w.run script schedule j).loop.tally := by
  induction j, hkj using Nat.le_induction with
  | base => exact .refl _
  | succ j _ ih =>
    refine ih.trans ?_
    rw [run_succ]
    cases schedule j with
    | turn => exact grows_turn _ script
    | pass _ | stop _ | trigger | closeTriggers => exact .refl _

/-- How the cadence of a loop bears on its calls, its crashes and its end. -/
structure Suited (c : Cadence) (script : CallScript) (w : LoopWorld) : Prop where
  continues : c.Continues w.loop.cadence
  crashed : w.loop.phase = .crashed →
    c.isUnfit = true ∨ ∃ i < w.sent.length, script.reaction i = .crashes
  notAborted : w.loop.phase ≠ .aborted
  ended : ∀ why, w.loop.phase = .ended why →
    why.suits c = true ∧ (why = .singleShotDone → w.sent.length = 1)
  single : c = .single → w.sent.length ≤ 1 ∧ (w.loop.phase = .waiting → w.sent.length = 0)

theorem suited_send (h : w.Suited c script) (hphase : w.loop.phase = .waiting) :
    (w.send script).Suited c script := by
  have hnext : (w.send script).loop.phase = (script.reaction w.sent.length).phase w.now := rfl
  have hlength : (w.send script).sent.length = w.sent.length + 1 := length_sent_send w script
  have hcadence : c.Continues (w.send script).loop.cadence := by
    rw [loop_send, RequestLoop.cadence_send]
    exact h.continues.mapTicker fun t => t.interval_take w.now
  have hsingle (hc : c = .single) : (w.send script).sent.length = 1 := by
    rw [hlength, (h.single hc).2 hphase]
  rcases (script.reaction w.sent.length).phase_cases w.now with ⟨hr, hp⟩ | ⟨back, hp⟩
  · rw [hp] at hnext
    exact ⟨hcadence, fun _ => .inr ⟨w.sent.length, by omega, hr⟩, by rw [hnext]; nofun,
      by rw [hnext]; nofun, fun hc => ⟨Nat.le_of_eq (hsingle hc), by rw [hnext]; nofun⟩⟩
  · rw [hp] at hnext
    exact ⟨hcadence, by rw [hnext]; nofun, by rw [hnext]; nofun, by rw [hnext]; nofun,
      fun hc => ⟨Nat.le_of_eq (hsingle hc), by rw [hnext]; nofun⟩⟩

theorem suited_receive (h : w.Suited c script) (ha : w.Accounted)
    (hc : w.loop.isCalling = true) (acknowledged : Bool) :
    (w.receive acknowledged).Suited c script := by
  have hsent : 0 < w.sent.length := by
    rw [ha.of_calling hc]
    exact Nat.succ_pos _
  have hsingle (hs : c = .single) : w.sent.length = 1 := by
    have hle := (h.single hs).1
    omega
  refine ⟨h.continues.afterCall acknowledged, fun hp => ?_, fun hp => ?_, fun why hp => ?_,
    fun hs => ⟨Nat.le_of_eq (hsingle hs), fun hp => ?_⟩⟩
  · rw [loop_receive] at hp
    rcases w.loop.phase_receive acknowledged with hq | ⟨why, hq⟩ <;> simp [hq] at hp
  · rw [loop_receive] at hp
    rcases w.loop.phase_receive acknowledged with hq | ⟨why, hq⟩ <;> simp [hq] at hp
  · obtain ⟨hsuits, -⟩ := RequestLoop.ending_of_receive hp
    rw [LoopEnd.suits_of_continues h.continues] at hsuits
    refine ⟨hsuits, fun hwhy => hsingle ?_⟩
    rw [hwhy] at hsuits
    cases c <;> simp_all [LoopEnd.suits]
  · -- The one call of such a loop ends it.
    rw [loop_receive, RequestLoop.phase_receive_eq, h.continues.eq_single.mpr hs] at hp
    cases hp

theorem suited_turn (h : w.Suited c script) (ha : w.Accounted) :
    (w.turn script).Suited c script := by
  rcases w.action_cases with ⟨hrest, -⟩ | ⟨hsend, hphase, -⟩ | ⟨hc, acknowledged, hreceive⟩ |
    ⟨hphase, hcrash | ⟨why, hfinish⟩⟩
  · rwa [turn_of_rest hrest]
  · rw [turn, hsend, act]
    exact suited_send h hphase
  · rw [turn, hreceive, act]
    exact suited_receive h ha hc acknowledged
  · have hunfit : c.isUnfit = true := by
      rw [← h.continues.isUnfit]
      exact isUnfit_of_crash hphase hcrash
    rw [turn, hcrash, act]
    refine ⟨h.continues, fun _ => .inl hunfit, fun hp => ?_, fun why hp => ?_,
      fun hs => ⟨(h.single hs).1, fun hp => ?_⟩⟩ <;> cases hp
  · rw [turn, hfinish, act]
    refine ⟨h.continues, fun hp => ?_, fun hp => ?_, fun why' hp => ?_,
      fun hs => ⟨(h.single hs).1, fun hp => ?_⟩⟩ <;> cases hp
    rcases finish_cases hphase hfinish with rfl | ⟨rfl, hclosed⟩
    · exact ⟨rfl, fun hwhy => by cases hwhy⟩
    · have hsource : ∃ source, w.loop.cadence = .onTrigger source :=
        hclosed.elim (⟨_, ·⟩) fun hshared => ⟨_, hshared.1⟩
      obtain ⟨source, hcadence⟩ := hsource
      rw [(h.continues.eq_onTrigger source).mp hcadence]
      exact ⟨rfl, fun hwhy => by cases hwhy⟩

/-- At any time a loop keeps its cadence, and the end it has come to is one that suits it. -/
theorem suited_run (h : w.Suited c script) (ha : w.Accounted) (schedule : Nat → Happening)
    (k : Nat) : (w.run script schedule k).Suited c script := by
  induction k with
  | zero => exact h
  | succ k ih =>
    rw [run_succ]
    cases schedule k with
    | turn => exact suited_turn ih (accounted_run ha script schedule k)
    | pass _ | stop _ | trigger | closeTriggers =>
      exact ⟨ih.continues, ih.crashed, ih.notAborted, ih.ended, ih.single⟩

theorem suited_started (m : Method) (c : Cadence) (p : Profile) (now : Nat) (stop : StopSignal)
    (triggers : Triggers) (script : CallScript) :
    (started m c p now stop triggers).Suited c script :=
  ⟨c.continues_start now, nofun, nofun, nofun, fun _ => ⟨Nat.zero_le 1, fun _ => rfl⟩⟩

/-- Every trigger that was raised has been sent for or is on its way, and a loop that has ended for
want of triggers has left none. -/
structure Fed (c : Cadence) (first : Triggers) (schedule : Nat → Happening) (k : Nat)
    (w : LoopWorld) : Prop where
  isOpen : w.triggers.isOpen = first.openAt schedule k
  shared : c = .onTrigger .shared →
    w.sent.length + w.triggers.pending = first.raised schedule k
  closed : c = .onTrigger .closed → w.sent.length = 0
  ended : c = .onTrigger .shared → w.loop.phase = .ended .triggerClosed →
    w.triggers.isOpen = false ∧ w.triggers.pending = 0

theorem fed_send (h : w.Fed c first schedule k) (hc : c.Continues w.loop.cadence)
    (hphase : w.loop.phase = .waiting) (ha : w.action = .send) :
    (w.send script).Fed c first schedule k := by
  have hopen : (w.send script).triggers.isOpen = w.triggers.isOpen := by
    simp only [send]
    split <;> rfl
  refine ⟨hopen.trans h.isOpen, fun hshared => ?_, fun hclosed => ?_, fun _ hp => ?_⟩
  · have hcadence := (hc.eq_onTrigger .shared).mpr hshared
    have huses : w.loop.usesTrigger = true := by simp only [RequestLoop.usesTrigger, hcadence]
    have hpending : (w.send script).triggers.pending = w.triggers.pending - 1 := by
      simp only [send, huses, if_true]
    have hpos := (pending_of_send hphase hcadence ha).2
    have hsum := h.shared hshared
    rw [length_sent_send, hpending]
    omega
  · have hcadence := (hc.eq_onTrigger .closed).mpr hclosed
    cases (pending_of_send hphase hcadence ha).1
  · rw [loop_send, RequestLoop.phase_send] at hp
    rcases (script.reaction w.sent.length).phase_cases w.now with ⟨-, hr⟩ | ⟨back, hr⟩ <;>
      simp [hr] at hp

/-- A turn takes a trigger for its call, and leaves none behind when the loop ends for want of
them. -/
theorem fed_turn (h : w.Fed c first schedule k) (hc : c.Continues w.loop.cadence) :
    (w.turn script).Fed c first schedule k := by
  rcases w.action_cases with ⟨hrest, -⟩ | ⟨hsend, hphase, -⟩ | ⟨-, acknowledged, hreceive⟩ |
    ⟨hphase, hcrash | ⟨why, hfinish⟩⟩
  · rwa [turn_of_rest hrest]
  · rw [turn, hsend, act]
    exact fed_send h hc hphase hsend
  · rw [turn, hreceive, act]
    refine ⟨h.isOpen, h.shared, h.closed, fun _ hp => ?_⟩
    exact absurd rfl (RequestLoop.ending_of_receive hp).2
  · rw [turn, hcrash, act]
    exact ⟨h.isOpen, h.shared, h.closed, fun _ hp => by cases hp⟩
  · rw [turn, hfinish, act]
    refine ⟨h.isOpen, h.shared, h.closed, fun hshared hp => ?_⟩
    cases hp
    rcases finish_cases hphase hfinish with hwhy | ⟨-, hclosed | ⟨-, hnone, hend⟩⟩
    · cases hwhy
    · rw [(hc.eq_onTrigger .closed).mp hclosed] at hshared
      cases hshared
    · exact ⟨hend, hnone⟩

/-- What happens around the loop raises triggers or closes them, or leaves them alone. -/
theorem fed_step (h : w.Fed c first schedule k) (hc : c.Continues w.loop.cadence) :
    (w.step script (schedule k)).Fed c first schedule (k + 1) := by
  have hsame (he : schedule k ≠ .trigger ∧ schedule k ≠ .closeTriggers) {w' : LoopWorld}
      (h' : w'.Fed c first schedule k) : w'.Fed c first schedule (k + 1) := by
    refine ⟨?_, ?_, h'.closed, h'.ended⟩
    · rw [Triggers.openAt_succ, decide_eq_true he.2, Bool.and_true]
      exact h'.isOpen
    · rw [Triggers.raised_succ, if_neg fun hand => he.1 hand.1]
      exact h'.shared
  cases he : schedule k with
  | turn => exact hsame (by simp [he]) (fed_turn h hc)
  | pass _ | stop _ => exact hsame (by simp [he]) ⟨h.isOpen, h.shared, h.closed, h.ended⟩
  | closeTriggers =>
    refine ⟨?_, fun hshared => ?_, h.closed, fun hshared hp => ⟨rfl, (h.ended hshared hp).2⟩⟩
    · simp [step, Triggers.openAt_succ, he]
    · rw [Triggers.raised_succ, if_neg (by simp [he])]
      exact h.shared hshared
  | trigger =>
    have hopen : first.openAt schedule k = w.triggers.isOpen := h.isOpen.symm
    have hnext : first.openAt schedule (k + 1) = w.triggers.isOpen := by
      simp [Triggers.openAt_succ, he, hopen]
    cases hw : w.triggers.isOpen with
    | true =>
      simp only [step, hw, if_true]
      refine ⟨by rw [hnext, hw], fun hshared => ?_, h.closed, fun hshared hp => ?_⟩
      · rw [Triggers.raised_succ, if_pos ⟨he, hopen.trans hw⟩, ← h.shared hshared, Nat.add_assoc]
      · rw [(h.ended hshared hp).1] at hw
        cases hw
    | false =>
      simp only [step, hw, Bool.false_eq_true, if_false]
      refine ⟨by rw [hnext], fun hshared => ?_, h.closed, h.ended⟩
      rw [Triggers.raised_succ, if_neg fun hand => ?_]
      · exact h.shared hshared
      · rw [hopen, hw] at hand
        cases hand.2

/-- At any time the triggers that were raised are those sent for and those still to be taken. -/
theorem fed_run (h : w.Fed c first schedule 0) (hc : w.Suited c script) (ha : w.Accounted)
    (k : Nat) : (w.run script schedule k).Fed c first schedule k := by
  induction k with
  | zero => exact h
  | succ k ih => exact fed_step ih (suited_run hc ha schedule k).continues

theorem fed_started (m : Method) (c : Cadence) (p : Profile) (now : Nat) (stop : StopSignal)
    (triggers : Triggers) (schedule : Nat → Happening) :
    (started m c p now stop triggers).Fed c triggers schedule 0 where
  isOpen := by
    simp only [Triggers.openAt, List.range_zero, List.all_nil, Bool.and_true]
    rfl
  shared _ := by
    simp only [Triggers.raised, List.range_zero, List.countP_nil, Nat.add_zero]
    exact Nat.zero_add _
  closed _ := rfl
  ended _ := nofun

end LoopWorld
end ScriptedPeer
