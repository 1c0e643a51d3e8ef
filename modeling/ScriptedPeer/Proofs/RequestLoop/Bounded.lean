import Mathlib.Data.List.Basic
import Mathlib.Data.Nat.Init
import ScriptedPeer.Proofs.Counter
import ScriptedPeer.Proofs.RequestLoop.World

/-!
# Bounded loops

A bounded loop sends until its counter says that nothing is left, which it asks after every call, or
until the first reply if it was told so. The number of its calls and the way it ends can be read off
the answers in advance. Whatever the schedule, the loop makes these calls in this order. If nobody
else gives the stop and the loop keeps getting its turns, it makes all of them.
-/

namespace ScriptedPeer

open BoundedCounter

/-- A call that comes back, at once or after some time. -/
structure Answer where
  acknowledged : Bool
  /-- In milliseconds; none when the answer is not waited for. -/
  delay : Option Nat
  deriving DecidableEq, Repr

def Answer.reaction (a : Answer) : Reaction :=
  match a.delay with
  | none => .atOnce a.acknowledged
  | some millis => .after millis a.acknowledged

/-- A bounded loop with the answers to its calls and what the clock tells for each. -/
structure BoundedSetup where
  method : Method
  profile : Profile
  interval : Nat
  limit : UInt32
  untilFirstReply : Bool
  atBound : AtBound
  answer : Nat → Answer
  stamp : Nat → Nat → Timestamp

namespace BoundedSetup

def loop (s : BoundedSetup) : RequestLoop where
  method := s.method
  cadence := .bounded { interval := s.interval } { limit := s.limit } s.untilFirstReply s.atBound
  profile := s.profile

def script (s : BoundedSetup) : CallScript := ⟨fun i => (s.answer i).reaction, s.stamp⟩

/-- The loop as it is started, alone with a stop signal that has not been given. -/
def world (s : BoundedSetup) (now : Nat) : LoopWorld := { loop := s.loop.start now, now }

def acknowledged (s : BoundedSetup) (i : Nat) : Bool := (s.answer i).acknowledged

/-- The most calls that the loop can make. A limit of zero still lets it make one. -/
def most (s : BoundedSetup) : Nat := max s.limit.toNat 1

/-- The first of these calls that is acknowledged, if that is to end the loop. -/
def firstReply? (s : BoundedSetup) : Option Nat :=
  if s.untilFirstReply then (List.range s.most).find? s.acknowledged else none

/-- How many calls the loop makes when it is let be. -/
def callCount (s : BoundedSetup) : Nat :=
  match s.firstReply? with
  | some i => i + 1
  | none => s.most

def ending (s : BoundedSetup) : LoopEnd :=
  if s.firstReply?.isSome then .firstReply else .boundReached

/-- Why the loop gives the stop when it ends, if it does. -/
def stopReason (s : BoundedSetup) : Option StopReason :=
  if s.ending = .boundReached ∧ s.atBound = .stopProcess then some (.requestBound s.method)
  else none

/-- The first `count` requests. -/
def calls (s : BoundedSetup) (count : Nat) : List Request :=
  (List.range count).map fun i =>
    s.profile.request s.method (SequenceNumber.first.advance (i * s.profile.numbersUsed s.method))
      (s.stamp i)

def successes (s : BoundedSetup) (count : Nat) : Nat := (List.range count).countP s.acknowledged

def failures (s : BoundedSetup) (count : Nat) : Nat :=
  (List.range count).countP (!s.acknowledged ·)

variable {s : BoundedSetup}

/-- The reply that ends a loop is the first, and comes before its bound is used up. -/
theorem firstReply?_eq_some {r : Nat} :
    s.firstReply? = some r ↔ s.untilFirstReply = true ∧ r < s.most ∧ s.acknowledged r = true ∧
      ∀ j < r, s.acknowledged j = false := by
  cases hu : s.untilFirstReply with
  | false => simp [firstReply?, hu]
  | true => simp [firstReply?, hu, List.find?_range_eq_some, and_left_comm]

/-- Without such a reply the loop comes to its bound, or does not heed replies. -/
theorem firstReply?_eq_none :
    s.firstReply? = none ↔
      (s.untilFirstReply = true → ∀ j < s.most, s.acknowledged j = false) := by
  cases hu : s.untilFirstReply with
  | false => simp [firstReply?, hu]
  | true => simp [firstReply?, hu]

theorem most_pos (s : BoundedSetup) : 0 < s.most := by
  simp only [most]
  omega

/-- The loop makes call `i` if that is within the bound and no reply has ended it before. -/
theorem lt_callCount {i : Nat} :
    i < s.callCount ↔
      i < s.most ∧ (s.untilFirstReply = true → ∀ j < i, s.acknowledged j = false) := by
  cases hr : s.firstReply? with
  | some r =>
    have hc : s.callCount = r + 1 := by simp only [callCount, hr]
    obtain ⟨hu, hlt, hack, hfirst⟩ := firstReply?_eq_some.mp hr
    rw [hc]
    constructor
    · intro hi
      exact ⟨by omega, fun _ j hj => hfirst j (by omega)⟩
    · rintro ⟨-, hnone⟩
      by_contra hi
      have hcontra := hnone hu r (by omega)
      rw [hack] at hcontra
      cases hcontra
  | none =>
    have hc : s.callCount = s.most := by simp only [callCount, hr]
    have hnone := firstReply?_eq_none.mp hr
    rw [hc]
    exact ⟨fun hi => ⟨hi, fun hu j hj => hnone hu j (by omega)⟩, And.left⟩

theorem callCount_pos (s : BoundedSetup) : 0 < s.callCount :=
  lt_callCount.mpr ⟨s.most_pos, fun _ j hj => absurd hj (Nat.not_lt_zero j)⟩

@[simp] theorem successes_succ (s : BoundedSetup) (k : Nat) :
    s.successes (k + 1) = s.successes k + if s.acknowledged k then 1 else 0 := by
  simp [successes, List.range_succ, List.countP_append, List.countP_singleton]

@[simp] theorem failures_succ (s : BoundedSetup) (k : Nat) :
    s.failures (k + 1) = s.failures k + if s.acknowledged k then 0 else 1 := by
  cases h : s.acknowledged k <;>
    simp [failures, List.range_succ, List.countP_append, h]

theorem successes_add_failures (s : BoundedSetup) (k : Nat) :
    s.successes k + s.failures k = k := by
  induction k with
  | zero => rfl
  | succ k ih =>
    rw [successes_succ, failures_succ]
    split <;> omega

/-- Each call is numbered from where the one before it ended. -/
theorem calls_succ (s : BoundedSetup) (k : Nat) :
    s.calls (k + 1) = s.calls k ++ [s.profile.request s.method
      (SequenceNumber.first.advance (k * s.profile.numbersUsed s.method)) (s.stamp k)] := by
  simp [calls, List.range_succ]

theorem calls_isFront {j k : Nat} (h : j ≤ k) : s.calls j <+: s.calls k := by
  induction k, h using Nat.le_induction with
  | base => exact List.prefix_rfl
  | succ k _ ih =>
    rw [calls_succ]
    exact ih.trans (List.prefix_append _ _)

/-- The reply to call `i` ends the loop. -/
theorem ending_of_reply {i : Nat} (hi : i < s.callCount) (hu : s.untilFirstReply = true)
    (ha : s.acknowledged i = true) : s.callCount = i + 1 ∧ s.ending = .firstReply := by
  obtain ⟨hlt, hnone⟩ := lt_callCount.mp hi
  have hr : s.firstReply? = some i := firstReply?_eq_some.mpr ⟨hu, hlt, ha, hnone hu⟩
  exact ⟨by rw [callCount, hr], by rw [ending, hr]; rfl⟩

/-- Call `i` is the last within the bound, and no reply ends the loop. -/
theorem ending_of_bound {i : Nat} (hi : i < s.callCount)
    (hn : ¬ (s.untilFirstReply = true ∧ s.acknowledged i = true)) (hb : s.limit.toNat ≤ i + 1) :
    s.callCount = i + 1 ∧ s.ending = .boundReached := by
  obtain ⟨hlt, hnone⟩ := lt_callCount.mp hi
  have hmost : s.most = i + 1 := by
    simp only [most] at hlt ⊢
    omega
  have hr : s.firstReply? = none := by
    apply firstReply?_eq_none.mpr
    intro hu j hj
    by_cases hji : j = i
    · rw [hji]
      simpa [hu] using hn
    · exact hnone hu j (by omega)
  exact ⟨by rw [callCount, hr, hmost], by rw [ending, hr]; rfl⟩

/-- Call `i` is followed by another. -/
theorem succ_lt_callCount {i : Nat} (hi : i < s.callCount)
    (hn : ¬ (s.untilFirstReply = true ∧ s.acknowledged i = true)) (hb : i + 1 < s.limit.toNat) :
    i + 1 < s.callCount := by
  obtain ⟨-, hnone⟩ := lt_callCount.mp hi
  apply lt_callCount.mpr
  refine ⟨by simp only [most]; omega, ?_⟩
  intro hu j hj
  by_cases hji : j = i
  · rw [hji]
    simpa [hu] using hn
  · exact hnone hu j (by omega)

/-- What an answer leads to: the loop goes on to its next call, or it ends as foreseen. -/
theorem receive_cases {i : Nat} (hi : i < s.callCount) {l : RequestLoop} {t : Ticker}
    (hm : l.method = s.method)
    (hc : l.cadence = .bounded t (askedTimes s.limit i) s.untilFirstReply s.atBound) :
    let tally := RequestLoop.count l.tally (s.acknowledged i)
    (i + 1 < s.callCount ∧ l.receive (s.acknowledged i) =
      ({ l with
        cadence := .bounded t (askedTimes s.limit (i + 1)) s.untilFirstReply s.atBound
        tally
        phase := .waiting }, none)) ∨
    (i + 1 = s.callCount ∧ ∃ cadence, l.receive (s.acknowledged i) =
      ({ l with cadence, tally, phase := .ended s.ending }, s.stopReason)) := by
  intro tally
  simp only [RequestLoop.receive, RequestLoop.afterCall, hc]
  by_cases hr : s.untilFirstReply = true ∧ s.acknowledged i = true
  · obtain ⟨hcount, hend⟩ := ending_of_reply hi hr.1 hr.2
    right
    refine ⟨hcount.symm, .bounded t (askedTimes s.limit i) s.untilFirstReply s.atBound, ?_⟩
    simp only [hr.1, hr.2, Bool.and_self, if_true, RequestLoop.phaseAfter, stopReason, hend]
    simp [tally, hr.2]
  · have hand : ¬ (s.untilFirstReply && s.acknowledged i) = true := by simpa using hr
    rw [if_neg hand, check_askedTimes]
    by_cases hb : i + 1 < s.limit.toNat
    · left
      refine ⟨succ_lt_callCount hi hr hb, ?_⟩
      simp [hb, CounterDecision.isExhausted, CounterDecision.isAct, RequestLoop.phaseAfter, tally]
    · obtain ⟨hcount, hend⟩ := ending_of_bound hi hr (by omega)
      right
      refine ⟨hcount.symm, .bounded t (askedTimes s.limit (i + 1)) s.untilFirstReply s.atBound, ?_⟩
      rw [if_neg hb]
      have hex : (if i + 1 = s.limit.toNat then CounterDecision.limitReached
          else .exhausted).isExhausted = true := by
        apply CounterDecision.isExhausted_iff.mpr
        split <;> simp
      simp [hex, RequestLoop.phaseAfter, stopReason, hend, hm, tally]

/-- Where a loop stands after `sent` requests of which `received` have been answered. -/
inductive Stage (s : BoundedSetup) (l : RequestLoop) (sent received : Nat) : Prop where
  | waiting (t : Ticker) (hphase : l.phase = .waiting) (hsent : sent = received)
      (hmore : received < s.callCount) (hticker : t.interval = s.interval)
      (hcadence : l.cadence =
        .bounded t (askedTimes s.limit received) s.untilFirstReply s.atBound)
  | calling (t : Ticker) (back : Return) (hphase : l.phase = .calling back)
      (hback : back = .atOnce (s.acknowledged received) ∨
        ∃ time, back = .at time (s.acknowledged received))
      (hsent : sent = received + 1) (hmore : received < s.callCount)
      (hticker : t.interval = s.interval)
      (hcadence : l.cadence =
        .bounded t (askedTimes s.limit received) s.untilFirstReply s.atBound)
  | ended (hphase : l.phase = .ended s.ending) (hsent : sent = s.callCount)
      (hreceived : received = s.callCount)
  | stopped (hphase : l.phase = .ended .stopped) (hsent : sent = received)
      (hmost : received ≤ s.callCount)

/-- The loop has sent the requests that were foreseen, and counts their answers. -/
structure Progress (s : BoundedSetup) (l : RequestLoop) (sent : List (Nat × Request))
    (received : Nat) : Prop where
  method : l.method = s.method
  profile : l.profile = s.profile
  requests : sent.map Prod.snd = s.calls sent.length
  next : l.next = SequenceNumber.first.advance (sent.length * s.profile.numbersUsed s.method)
  attempts : l.tally.attempts = sent.length
  successes : l.tally.successes = s.successes received
  failures : l.tally.failures = s.failures received
  stage : s.Stage l sent.length received

theorem Stage.bounds {l : RequestLoop} {sent received : Nat} (h : s.Stage l sent received) :
    received ≤ sent ∧ sent ≤ s.callCount := by
  cases h with
  | waiting t hphase hsent hmore hticker hcadence => omega
  | calling t back hphase hback hsent hmore hticker hcadence => omega
  | ended hphase hsent hreceived => omega
  | stopped hphase hsent hmost => omega

/-- Between two calls the counter has been asked once for each of them. -/
theorem Stage.of_waiting {l : RequestLoop} {sent received : Nat} (h : s.Stage l sent received)
    (hphase : l.phase = .waiting) :
    ∃ t : Ticker, sent = received ∧ received < s.callCount ∧ t.interval = s.interval ∧
      l.cadence = .bounded t (askedTimes s.limit received) s.untilFirstReply s.atBound := by
  cases h with
  | waiting t _ hsent hmore hticker hcadence => exact ⟨t, hsent, hmore, hticker, hcadence⟩
  | calling t back hp => rw [hphase] at hp; cases hp
  | ended hp => rw [hphase] at hp; cases hp
  | stopped hp => rw [hphase] at hp; cases hp

/-- During a call the counter has been asked once for each call before it. -/
theorem Stage.of_calling {l : RequestLoop} {sent received : Nat} (h : s.Stage l sent received)
    {back : Return} (hphase : l.phase = .calling back) :
    ∃ t : Ticker, sent = received + 1 ∧ received < s.callCount ∧ t.interval = s.interval ∧
      l.cadence = .bounded t (askedTimes s.limit received) s.untilFirstReply s.atBound := by
  cases h with
  | waiting t hp => rw [hphase] at hp; cases hp
  | calling t _ _ _ hsent hmore hticker hcadence => exact ⟨t, hsent, hmore, hticker, hcadence⟩
  | ended hp => rw [hphase] at hp; cases hp
  | stopped hp => rw [hphase] at hp; cases hp

/-- A loop that has ended as foreseen has made all its calls. -/
theorem Stage.of_ended {l : RequestLoop} {sent received : Nat} (h : s.Stage l sent received)
    (hphase : l.phase = .ended s.ending) : sent = s.callCount ∧ received = s.callCount := by
  cases h with
  | waiting t hp => rw [hphase] at hp; cases hp
  | calling t back hp => rw [hphase] at hp; cases hp
  | ended _ hsent hreceived => exact ⟨hsent, hreceived⟩
  | stopped hp =>
    rw [hphase, ending] at hp
    split at hp <;> cases hp

theorem progress_world (s : BoundedSetup) (now : Nat) :
    s.Progress (s.world now).loop (s.world now).sent 0 where
  method := rfl
  profile := rfl
  requests := rfl
  next := by simp [world, loop, RequestLoop.start]
  attempts := rfl
  successes := rfl
  failures := rfl
  stage := .waiting ⟨s.interval, now⟩ rfl rfl s.callCount_pos rfl
    (by rw [askedTimes_zero]; rfl)

theorem phase_reaction (s : BoundedSetup) (i now : Nat) :
    ∃ back, (s.answer i).reaction.phase now = .calling back ∧
      (back = .atOnce (s.acknowledged i) ∨ ∃ time, back = .at time (s.acknowledged i)) := by
  cases hd : (s.answer i).delay with
  | none => exact ⟨_, by simp only [Answer.reaction, hd, Reaction.phase]; rfl, .inl rfl⟩
  | some millis => exact ⟨_, by simp only [Answer.reaction, hd, Reaction.phase]; rfl, .inr ⟨_, rfl⟩⟩

theorem progress_send {w : LoopWorld} {received : Nat} (h : s.Progress w.loop w.sent received)
    (hphase : w.loop.phase = .waiting) :
    s.Progress (w.send s.script).loop (w.send s.script).sent received := by
  obtain ⟨back, hback, hanswer⟩ := s.phase_reaction w.sent.length w.now
  have hlength : (w.send s.script).sent.length = w.sent.length + 1 := by
    simp [LoopWorld.send]
  obtain ⟨t, hsent, hmore, hticker, hcadence⟩ := h.stage.of_waiting hphase
  exact {
    method := by simp [LoopWorld.send, h.method]
    profile := by simp [LoopWorld.send, h.profile]
    requests := by
      rw [hlength, calls_succ, ← h.requests]
      simp [LoopWorld.send, RequestLoop.request, h.method, h.profile, h.next, script]
    next := by
      rw [hlength, Nat.succ_mul, SequenceNumber.advance_add, ← h.next]
      simp [LoopWorld.send, h.method, h.profile]
    attempts := by rw [hlength]; simp [LoopWorld.send, h.attempts]
    successes := by simp [LoopWorld.send, h.successes]
    failures := by simp [LoopWorld.send, h.failures]
    stage := by
      rw [hlength]
      refine .calling (t.take w.now) back ?_ (hsent ▸ hanswer) (by omega) hmore ?_ ?_
      · simpa [LoopWorld.send, script] using hback
      · rw [Ticker.interval_take, hticker]
      · simp [LoopWorld.send, hcadence, Cadence.mapTicker] }

theorem progress_receive {w : LoopWorld} {received : Nat} (h : s.Progress w.loop w.sent received)
    {back : Return} (hphase : w.loop.phase = .calling back) :
    let w' := w.receive (s.acknowledged received)
    s.Progress w'.loop w'.sent (received + 1) ∧ w'.sent = w.sent ∧
      (w'.loop.phase = .waiting ∧ w'.stop = w.stop ∨
        w'.loop.phase = .ended s.ending ∧ w'.stop = LoopWorld.stopFor w.stop s.stopReason) := by
  intro w'
  obtain ⟨t, hsent, hmore, hticker, hcadence⟩ := h.stage.of_calling hphase
  rcases receive_cases hmore h.method hcadence with ⟨hnext, hr⟩ | ⟨hlast, cadence, hr⟩
  · rw [show w' = _ from LoopWorld.receive_eq hr]
    refine ⟨?_, rfl, .inl ⟨rfl, rfl⟩⟩
    exact { h with
      attempts := by simp [h.attempts]
      successes := by simp [h.successes]
      failures := by simp [h.failures]
      stage := .waiting t rfl hsent hnext hticker rfl }
  · rw [show w' = _ from LoopWorld.receive_eq hr]
    refine ⟨?_, rfl, .inr ⟨rfl, rfl⟩⟩
    exact { h with
      attempts := by simp [h.attempts]
      successes := by simp [h.successes]
      failures := by simp [h.failures]
      stage := .ended rfl (hsent.trans hlast) hlast }

theorem progress_finish {l : RequestLoop} {sent : List (Nat × Request)} {received : Nat}
    (h : s.Progress l sent received) (hphase : l.phase = .waiting) :
    s.Progress (l.finish .stopped) sent received := by
  obtain ⟨t, hsent, hmore, -, -⟩ := h.stage.of_waiting hphase
  exact { h with stage := .stopped rfl hsent (Nat.le_of_lt hmore) }

/-- Everything that a turn can bring: nothing, the end because of the stop, a request, or an answer,
which may be the last. -/
theorem turn_cases (hi : 0 < s.interval) {w : LoopWorld} {received : Nat}
    (h : s.Progress w.loop w.sent received) :
    let w' := w.turn s.script
    (w.action = .rest ∧ w' = w) ∨
    (w.loop.isOver = false ∧ w.stop.isTriggered = true ∧
      s.Progress w'.loop w'.sent received) ∨
    (w.loop.isOver = false ∧ w'.loop.isOver = false ∧ w'.stop = w.stop ∧
      w'.sent.length = w.sent.length + 1 ∧ s.Progress w'.loop w'.sent received) ∨
    (w.loop.isOver = false ∧ w'.sent = w.sent ∧ s.Progress w'.loop w'.sent (received + 1) ∧
      (w'.loop.isOver = false ∧ w'.stop = w.stop ∨
        w'.loop.phase = .ended s.ending ∧ w'.stop = LoopWorld.stopFor w.stop s.stopReason)) := by
  intro w'
  cases h.stage with
  | waiting t hphase hsent hmore hticker hcadence =>
    have hover : w.loop.isOver = false := by simp only [RequestLoop.isOver, hphase]
    have ha := LoopWorld.action_of_bounded hphase hcadence (hticker ▸ hi)
    by_cases hs : w.stop.isTriggered = true
    · rw [if_pos hs] at ha
      right; left
      refine ⟨hover, hs, ?_⟩
      simp only [w', LoopWorld.turn, ha, LoopWorld.act]
      exact progress_finish h hphase
    · rw [if_neg hs] at ha
      by_cases hd : t.deadline ≤ w.now
      · rw [if_pos hd] at ha
        right; right; left
        obtain ⟨back, hback, -⟩ := s.phase_reaction w.sent.length w.now
        simp only [w', LoopWorld.turn, ha, LoopWorld.act]
        refine ⟨hover, ?_, rfl, by simp [LoopWorld.send], progress_send h hphase⟩
        simp only [LoopWorld.send, RequestLoop.isOver, RequestLoop.phase_send, script, hback]
      · rw [if_neg hd] at ha
        exact .inl ⟨ha, LoopWorld.turn_of_rest ha s.script⟩
  | calling t back hphase hback hsent hmore hticker hcadence =>
    have hover : w.loop.isOver = false := by simp only [RequestLoop.isOver, hphase]
    rcases LoopWorld.action_of_calling hphase hback with ha | ⟨ha, -⟩
    · right; right; right
      simp only [w', LoopWorld.turn, ha, LoopWorld.act]
      obtain ⟨hp, hsent', hend⟩ := progress_receive h hphase
      refine ⟨hover, hsent', hp, ?_⟩
      rcases hend with ⟨hw, hstop⟩ | hend
      · exact .inl ⟨by simp only [RequestLoop.isOver, hw], hstop⟩
      · exact .inr hend
    · exact .inl ⟨ha, LoopWorld.turn_of_rest ha s.script⟩
  | ended hphase hsent hreceived =>
    have ha : w.action = .rest :=
      LoopWorld.action_of_isOver (by simp only [RequestLoop.isOver, hphase])
    exact .inl ⟨ha, LoopWorld.turn_of_rest ha s.script⟩
  | stopped hphase hsent hmost =>
    have ha : w.action = .rest :=
      LoopWorld.action_of_isOver (by simp only [RequestLoop.isOver, hphase])
    exact .inl ⟨ha, LoopWorld.turn_of_rest ha s.script⟩

end BoundedSetup
end ScriptedPeer
