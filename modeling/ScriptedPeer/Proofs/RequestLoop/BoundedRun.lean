import ScriptedPeer.Proofs.RequestLoop.Bounded

/-!
# Runs of bounded loops

Whatever a schedule does, a bounded loop makes the calls that can be foreseen from the answers, or
the first of them. When nobody else gives the stop, it ends in the way that can be foreseen, and a
schedule that keeps giving it turns brings it there.
-/

namespace ScriptedPeer.BoundedSetup

variable {s : BoundedSetup} {schedule : Nat → Happening}

/-- The world after the first `k` happenings since the loop was started. -/
def run (s : BoundedSetup) (start : Nat) (schedule : Nat → Happening) (k : Nat) : LoopWorld :=
  (s.world start).run s.script schedule k

theorem run_succ (s : BoundedSetup) (start : Nat) (schedule : Nat → Happening) (k : Nat) :
    s.run start schedule (k + 1) = (s.run start schedule k).step s.script (schedule k) := rfl

theorem progress_step (hi : 0 < s.interval) {w : LoopWorld} {received : Nat}
    (h : s.Progress w.loop w.sent received) (e : Happening) :
    ∃ received', s.Progress (w.step s.script e).loop (w.step s.script e).sent received' := by
  cases e with
  | turn =>
    rcases turn_cases hi h with ⟨-, hw⟩ | ⟨-, -, hp⟩ | ⟨-, -, -, -, hp⟩ | ⟨-, -, hp, -⟩
    · rw [LoopWorld.step, hw]
      exact ⟨received, h⟩
    · exact ⟨received, hp⟩
    · exact ⟨received, hp⟩
    · exact ⟨received + 1, hp⟩
  | pass millis => exact ⟨received, h⟩
  | stop reason => exact ⟨received, h⟩
  | trigger => exact ⟨received, h⟩
  | closeTriggers => exact ⟨received, h⟩

/-- At any time a bounded loop is somewhere on the way of its setup. -/
theorem progress_run (hi : 0 < s.interval) (start : Nat) (schedule : Nat → Happening) (k : Nat) :
    ∃ received, s.Progress (s.run start schedule k).loop (s.run start schedule k).sent received := by
  induction k with
  | zero => exact ⟨0, s.progress_world start⟩
  | succ k ih =>
    obtain ⟨received, h⟩ := ih
    exact progress_step hi h (schedule k)

/-- The stop signal is as the loop alone would leave it. -/
def Alone (s : BoundedSetup) (w : LoopWorld) : Prop :=
  w.loop.isOver = false ∧ w.stop.reason = none ∨
    w.loop.phase = .ended s.ending ∧ w.stop.reason = s.stopReason

theorem Alone.reason_eq_none {w : LoopWorld} (h : s.Alone w) (ho : w.loop.isOver = false) :
    w.stop.reason = none := by
  rcases h with ⟨-, hr⟩ | ⟨hp, -⟩
  · exact hr
  · simp [RequestLoop.isOver, hp] at ho

theorem Alone.not_isTriggered {w : LoopWorld} (h : s.Alone w) (ho : w.loop.isOver = false) :
    w.stop.isTriggered ≠ true := by
  simp [StopSignal.isTriggered, h.reason_eq_none ho]

/-- A step in which nobody else gives the stop leaves it to the loop. -/
theorem alone_step (hi : 0 < s.interval) {w : LoopWorld} {received : Nat}
    (h : s.Progress w.loop w.sent received) (ha : s.Alone w) {e : Happening}
    (he : ∀ reason, e ≠ .stop reason) : s.Alone (w.step s.script e) := by
  cases e with
  | turn =>
    rcases turn_cases hi h with ⟨-, hw⟩ | ⟨ho, hs, -⟩ | ⟨ho, ho', hs, -⟩ | ⟨ho, -, -, hend⟩
    · rw [LoopWorld.step, hw]
      exact ha
    · exact absurd hs (ha.not_isTriggered ho)
    · exact .inl ⟨ho', by rw [LoopWorld.step, hs, ha.reason_eq_none ho]⟩
    · rcases hend with ⟨ho', hs⟩ | ⟨hp, hs⟩
      · exact .inl ⟨ho', by rw [LoopWorld.step, hs, ha.reason_eq_none ho]⟩
      · refine .inr ⟨hp, ?_⟩
        rw [LoopWorld.step, hs]
        exact LoopWorld.reason_stopFor (ha.reason_eq_none ho) _
  | stop reason => exact absurd rfl (he reason)
  | pass millis => exact ha
  | trigger => exact ha
  | closeTriggers => exact ha

theorem alone_run (hi : 0 < s.interval) (hu : Undisturbed schedule) (start k : Nat) :
    s.Alone (s.run start schedule k) := by
  induction k with
  | zero => exact .inl ⟨rfl, rfl⟩
  | succ k ih =>
    obtain ⟨received, h⟩ := progress_run hi start schedule k
    exact alone_step hi h ih (hu k)

/-- What a bounded loop that was let be has done when it is over. -/
structure Finished (s : BoundedSetup) (w : LoopWorld) : Prop where
  requests : w.requests = s.calls s.callCount
  phase : w.loop.phase = .ended s.ending
  reason : w.stop.reason = s.stopReason
  attempts : w.loop.tally.attempts = s.callCount
  successes : w.loop.tally.successes = s.successes s.callCount
  failures : w.loop.tally.failures = s.failures s.callCount

/-- Alone, a loop that is over has finished its setup. -/
theorem finished_of_isOver {w : LoopWorld} {received : Nat}
    (h : s.Progress w.loop w.sent received) (ha : s.Alone w) (ho : w.loop.isOver = true) :
    s.Finished w := by
  rcases ha with ⟨ho', -⟩ | ⟨hphase, hreason⟩
  · rw [ho] at ho'
    cases ho'
  · obtain ⟨hsent, hreceived⟩ := h.stage.of_ended hphase
    exact {
      requests := by rw [LoopWorld.requests, h.requests, hsent]
      phase := hphase
      reason := hreason
      attempts := h.attempts.trans hsent
      successes := by rw [h.successes, hreceived]
      failures := by rw [h.failures, hreceived] }

/-- How many requests and answers are still to come. -/
def remaining (s : BoundedSetup) (l : RequestLoop) : Nat :=
  2 * s.callCount - (l.tally.attempts + l.tally.successes + l.tally.failures)

/-- What is left to come is what the setup has, less what was sent and received. -/
theorem remaining_eq {l : RequestLoop} {sent : List (Nat × Request)} {received : Nat}
    (h : s.Progress l sent received) :
    s.remaining l = 2 * s.callCount - (sent.length + received) := by
  rw [remaining, h.attempts, h.successes, h.failures, Nat.add_assoc, successes_add_failures]

/-- A turn in which the loop does not rest leaves less to come. -/
theorem remaining_turn_lt (hi : 0 < s.interval) {w : LoopWorld} {received : Nat}
    (h : s.Progress w.loop w.sent received) (ha : s.Alone w) (hr : w.action ≠ .rest) :
    s.remaining (w.turn s.script).loop < s.remaining w.loop := by
  have hb := h.stage.bounds
  rcases turn_cases hi h with ⟨hrest, -⟩ | ⟨ho, hs, -⟩ | ⟨-, -, -, hsent, hp⟩ | ⟨-, hsent, hp, -⟩
  · exact absurd hrest hr
  · exact absurd hs (ha.not_isTriggered ho)
  · have hb' := hp.stage.bounds
    rw [remaining_eq h, remaining_eq hp]
    omega
  · have hb' := hp.stage.bounds
    rw [remaining_eq h, remaining_eq hp]
    rw [hsent] at hb' ⊢
    omega

/-- A step either leaves the loop as it is or brings it nearer to its end. -/
theorem loop_step_or_remaining_lt (hi : 0 < s.interval) {w : LoopWorld} {received : Nat}
    (h : s.Progress w.loop w.sent received) (ha : s.Alone w) (e : Happening) :
    (w.step s.script e).loop = w.loop ∨
      s.remaining (w.step s.script e).loop < s.remaining w.loop := by
  cases e with
  | turn =>
    by_cases hr : w.action = .rest
    · left
      rw [LoopWorld.step, LoopWorld.turn_of_rest hr]
    · exact .inr (remaining_turn_lt hi h ha hr)
  | pass millis => exact .inl rfl
  | stop reason => exact .inl rfl
  | trigger => exact .inl rfl
  | closeTriggers => exact .inl rfl

/-- Until less is left to come, the loop stays as it is. -/
theorem loop_run_or_remaining_lt (hi : 0 < s.interval) (hu : Undisturbed schedule) (start : Nat)
    {k j : Nat} (hkj : k ≤ j) :
    (s.run start schedule j).loop = (s.run start schedule k).loop ∨
      ∃ i, k ≤ i ∧
        s.remaining (s.run start schedule i).loop < s.remaining (s.run start schedule k).loop := by
  induction j, hkj using Nat.le_induction with
  | base => exact .inl rfl
  | succ j hkj ih =>
    rcases ih with hsame | hless
    · obtain ⟨received, h⟩ := progress_run hi start schedule j
      have ha := alone_run hi hu start j
      rcases loop_step_or_remaining_lt hi h ha (schedule j) with hstep | hlt
      · exact .inl (hstep.trans hsame)
      · rw [hsame] at hlt
        exact .inr ⟨j + 1, Nat.le_succ_of_le hkj, hlt⟩
    · exact .inr hless

/-- There is a time from which on the loop, as it is now, acts when it has a turn. -/
theorem exists_due (hi : 0 < s.interval) {w : LoopWorld} {received : Nat}
    (h : s.Progress w.loop w.sent received) (ho : w.loop.isOver = false) :
    ∃ due, ∀ w' : LoopWorld, w'.loop = w.loop → due ≤ w'.now → w'.action ≠ .rest := by
  cases h.stage with
  | waiting t hphase hsent hmore hticker hcadence =>
    refine ⟨t.deadline, ?_⟩
    intro w' hw hdue
    rw [← hw] at hphase hcadence
    rw [LoopWorld.action_of_bounded hphase hcadence (hticker ▸ hi), if_pos hdue]
    split <;> simp
  | calling t back hphase hback hsent hmore hticker hcadence =>
    have htime : ∃ due, ∀ time, back = .at time (s.acknowledged received) → time ≤ due := by
      rcases hback with rfl | ⟨time, rfl⟩
      · exact ⟨0, fun _ he => by cases he⟩
      · refine ⟨time, fun _ he => ?_⟩
        cases he
        exact Nat.le_refl _
    obtain ⟨due, hdue⟩ := htime
    refine ⟨due, ?_⟩
    intro w' hw hnow
    rw [← hw] at hphase
    rcases LoopWorld.action_of_calling hphase hback with ha | ⟨-, time, ht, hlate⟩
    · rw [ha]
      simp
    · have := hdue time ht
      omega
  | ended hphase => simp [RequestLoop.isOver, hphase] at ho
  | stopped hphase => simp [RequestLoop.isOver, hphase] at ho

/-- With turns again and again the loop comes to its end. -/
theorem exists_isOver (hi : 0 < s.interval) (hu : Undisturbed schedule) (hf : Fair schedule)
    (start k : Nat) : ∃ j, (s.run start schedule j).loop.isOver = true := by
  induction hn : s.remaining (s.run start schedule k).loop using Nat.strong_induction_on
    generalizing k with
  | _ n ih =>
    cases ho : (s.run start schedule k).loop.isOver with
    | true => exact ⟨k, ho⟩
    | false =>
      obtain ⟨received, h⟩ := progress_run hi start schedule k
      obtain ⟨due, hdue⟩ := exists_due hi h ho
      obtain ⟨j, hkj, hturn, htime⟩ := hf k due
      -- The loop is still the same when it has its turn, and acts, or less is left to come already.
      rcases loop_run_or_remaining_lt hi hu start hkj with hsame | ⟨i, -, hlt⟩
      · have hnow : due ≤ (s.run start schedule j).now := by
          rw [run, LoopWorld.now_run]
          omega
        obtain ⟨received', h'⟩ := progress_run hi start schedule j
        have hlt := remaining_turn_lt hi h' (alone_run hi hu start j) (hdue _ hsame hnow)
        have hstep : s.run start schedule (j + 1) = (s.run start schedule j).turn s.script := by
          rw [run_succ, hturn, LoopWorld.step]
        rw [← hstep, hsame, hn] at hlt
        exact ih _ hlt (j + 1) rfl
      · exact ih _ (hn ▸ hlt) i rfl

theorem isOver_run {start k j : Nat} (hkj : k ≤ j)
    (ho : (s.run start schedule k).loop.isOver = true) :
    (s.run start schedule j).loop.isOver = true := by
  induction j, hkj using Nat.le_induction with
  | base => exact ho
  | succ j _ ih => rw [run_succ, LoopWorld.loop_step_of_isOver ih, ih]

/-- What was sent is the front of the calls of the setup. -/
theorem requests_isFront (hi : 0 < s.interval) (start : Nat) (schedule : Nat → Happening)
    (k : Nat) : (s.run start schedule k).requests <+: s.calls s.callCount := by
  obtain ⟨received, h⟩ := progress_run hi start schedule k
  rw [LoopWorld.requests, h.requests]
  exact calls_isFront h.stage.bounds.2

theorem finished_run (hi : 0 < s.interval) (hu : Undisturbed schedule) (start k : Nat)
    (ho : (s.run start schedule k).loop.isOver = true) :
    s.Finished (s.run start schedule k) := by
  obtain ⟨received, h⟩ := progress_run hi start schedule k
  exact finished_of_isOver h (alone_run hi hu start k) ho

/-- The loop ends with a reply just if it heeds them and gets one in time. -/
theorem ending_eq_firstReply :
    s.ending = .firstReply ↔
      s.untilFirstReply = true ∧ ∃ i < s.most, s.acknowledged i = true := by
  cases hr : s.firstReply? with
  | some r =>
    obtain ⟨hu, hlt, hack, -⟩ := firstReply?_eq_some.mp hr
    simp only [ending, hr, Option.isSome_some, if_true, true_iff]
    exact ⟨hu, r, hlt, hack⟩
  | none =>
    have hnone := firstReply?_eq_none.mp hr
    simp only [ending, hr, Option.isSome_none, Bool.false_eq_true, if_false, reduceCtorEq, false_iff]
    rintro ⟨hu, i, hlt, hack⟩
    rw [hnone hu i hlt] at hack
    cases hack

/-- A bounded loop makes the calls that can be foreseen from its answers, or the first of them when
somebody else gives the stop. When nobody does, it is over only when it has made them all, with the
end, the counts and the stop that can be foreseen, and with turns again and again it comes there. -/
theorem run_bounded (s : BoundedSetup) (hi : 0 < s.interval) (start : Nat)
    (schedule : Nat → Happening) :
    (∀ k, (s.run start schedule k).requests <+: s.calls s.callCount) ∧
    (Undisturbed schedule → ∀ k, (s.run start schedule k).loop.isOver = true →
      s.Finished (s.run start schedule k)) ∧
    (Undisturbed schedule → Fair schedule →
      ∃ k, ∀ j, k ≤ j → s.Finished (s.run start schedule j)) ∧
    (s.ending = .firstReply ↔
      s.untilFirstReply = true ∧ ∃ i < s.most, s.acknowledged i = true) ∧
    ∀ i, i < s.callCount ↔
      i < s.most ∧ (s.untilFirstReply = true → ∀ j < i, s.acknowledged j = false) := by
  refine ⟨requests_isFront hi start schedule, fun hu => finished_run hi hu start, ?_,
    ending_eq_firstReply, fun i => lt_callCount⟩
  intro hu hf
  obtain ⟨k, ho⟩ := exists_isOver hi hu hf start 0
  exact ⟨k, fun j hkj => finished_run hi hu start j (isOver_run hkj ho)⟩

/-- A second passes before each turn. -/
def everySecond (k : Nat) : Happening := if k % 2 = 0 then .pass 1000 else .turn

theorem elapsed_everySecond (m : Nat) : elapsed everySecond (2 * m + 1) = 1000 * (m + 1) := by
  induction m with
  | zero => rfl
  | succ m ih =>
    have hodd : everySecond (2 * m + 1) = .turn := by
      rw [everySecond, if_neg (by omega)]
    have heven : everySecond (2 * m + 2) = .pass 1000 := by
      rw [everySecond, if_pos (by omega)]
    rw [Nat.mul_succ, elapsed, elapsed, ih, hodd, heven, Happening.duration, Happening.duration]
    omega

theorem fair_everySecond : Fair everySecond := by
  intro k time
  refine ⟨2 * (k + time) + 1, by omega, ?_, ?_⟩
  · rw [everySecond, if_neg (by omega)]
  · rw [elapsed_everySecond]
    omega

theorem undisturbed_everySecond : Undisturbed everySecond := by
  intro k reason
  rw [everySecond]
  split <;> simp

/-- Three Tells at most, the second of which is acknowledged after four seconds. -/
def secondTell : BoundedSetup where
  method := .tell
  profile := ⟨"me", "me", ⟨"host", 1⟩, 0⟩
  interval := 1000
  limit := 3
  untilFirstReply := true
  atBound := .stopProcess
  answer i := ⟨i = 1, if i = 1 then some 4000 else none⟩
  stamp _ _ := ⟨0⟩

/-- The loop ends with the second Tell, short of its bound and without giving the stop. -/
theorem secondTell_finished :
    ∃ k, ∀ j, k ≤ j → (secondTell.run 0 everySecond j).loop.tally.attempts = 2 ∧
      (secondTell.run 0 everySecond j).loop.phase = .ended .firstReply ∧
      (secondTell.run 0 everySecond j).stop.reason = none := by
  obtain ⟨k, hk⟩ :=
    (run_bounded secondTell (by decide) 0 everySecond).2.2.1 undisturbed_everySecond fair_everySecond
  refine ⟨k, fun j hj => ?_⟩
  have h := hk j hj
  exact ⟨h.attempts, h.phase, h.reason⟩

end ScriptedPeer.BoundedSetup
