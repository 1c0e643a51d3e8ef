import Mathlib.Data.List.GetD
import Mathlib.Data.Nat.Init
import Mathlib.Tactic.ByContra
import ScriptedPeer.Proofs.RequestLoop.BoundedRun
import ScriptedPeer.Proofs.RequestLoop.Endings
import ScriptedPeer.Rehearsal.Clock

/-!
# Loops on a clock that waits for them

A virtual clock stands still while a loop has something to do. On such a clock the times of the calls
of a loop with an interval can be foreseen from how long the calls take: the next call is made when
the interval is over and the last call is back. This holds as long as no call outlasts the interval
by no more than the tolerance of the ticker, which would then not start its schedule anew.
-/

namespace ScriptedPeer

namespace Ticker

/-- A tick that is taken in time, or later than the tolerance, sets the schedule by itself. -/
theorem deadline_take_of_restarted {t : Ticker} {now : Nat}
    (h : t.deadline = now ∨ t.deadline + tolerance < now) :
    (t.take now).deadline = now + t.interval := by
  rcases h with rfl | hlate
  · exact deadline_take_of_le (Nat.le_add_right _ _)
  · exact deadline_take_of_lt hlate

end Ticker

namespace Cadence

theorem ticker?_mapTicker (c : Cadence) (f : Ticker → Ticker) :
    (c.mapTicker f).ticker? = c.ticker?.map f := by
  cases c <;> rfl

theorem ticker?_afterCall (c : Cadence) (acknowledged : Bool) :
    (RequestLoop.afterCall c acknowledged).1.ticker? = c.ticker? := by
  cases c with
  | periodic _ | single | onTrigger _ => rfl
  | bounded t counter untilFirstReply atBound =>
    simp only [RequestLoop.afterCall]
    split
    · rfl
    · split <;> rfl

end Cadence

namespace Reaction

/-- How long a call takes. None is counted for one that does not come back. -/
def duration : Reaction → Nat
  | after millis _ => millis
  | atOnce _ | hangs | crashes => 0

def comesBack : Reaction → Bool
  | atOnce _ | after .. => true
  | hangs | crashes => false

/-- A call that comes back is waited for, and not forever. -/
theorem phase_of_comesBack {r : Reaction} (h : r.comesBack = true) (now : Nat) :
    ∃ back, r.phase now = .calling back ∧ back ≠ .never := by
  cases r with
  | atOnce _ | after _ _ => exact ⟨_, rfl, nofun⟩
  | hangs | crashes => cases h

/-- The call comes back, and takes no longer than the interval. -/
structure ReturnsWithin (pace : Nat) (r : Reaction) : Prop where
  comesBack : r.comesBack = true
  duration_le : r.duration ≤ pace

/-- The call outlasts the interval, but a tick that waits for it is not later than is tolerated. -/
def Overruns (pace : Nat) (r : Reaction) : Prop :=
  pace < r.duration ∧ r.duration ≤ pace + Ticker.tolerance

end Reaction

/-- When call `n` is made: an interval after the one before, or when that is back. -/
def CallScript.callTime (script : CallScript) (start pace : Nat) : Nat → Nat
  | 0 => start
  | n + 1 => callTime script start pace n + max pace (script.reaction n).duration

namespace CallScript

variable {script : CallScript} {start pace : Nat}

theorem callTime_mono {i j : Nat} (h : i ≤ j) :
    script.callTime start pace i ≤ script.callTime start pace j := by
  induction j, h using Nat.le_induction with
  | base => exact Nat.le_refl _
  | succ j _ ih => exact Nat.le_trans ih (Nat.le_add_right _ _)

/-- Calls that take no longer than the interval are made at the ticks. -/
theorem callTime_of_short (h : ∀ i, (script.reaction i).duration ≤ pace) (n : Nat) :
    script.callTime start pace n = start + n * pace := by
  induction n with
  | zero => rw [callTime, Nat.zero_mul, Nat.add_zero]
  | succ n ih => rw [callTime, ih, Nat.max_eq_left (h n), Nat.add_assoc, Nat.succ_mul]

end CallScript

namespace RequestLoop

/-- With a ticker a loop sends when it is due, and rests until then. -/
theorem actionWaiting_of_ticker {c : Cadence} {t : Ticker} (h : c.ticker? = some t) (now : Nat)
    (triggers : Triggers) :
    actionWaiting c now triggers = if t.deadline ≤ now then .send else .rest := by
  cases c with
  | periodic _ | bounded _ _ _ _ =>
    cases h
    simp only [actionWaiting, Ticker.isDue, decide_eq_true_eq]
  | single | onTrigger _ => cases h

/-- Without a ticker the time does not matter. -/
theorem actionWaiting_of_untimed {c : Cadence} (h : c.ticker? = none) (now now' : Nat)
    (triggers : Triggers) : actionWaiting c now triggers = actionWaiting c now' triggers := by
  cases c with
  | periodic _ | bounded _ _ _ _ => cases h
  | single => rfl
  | onTrigger source => cases source <;> rfl

theorem ticker_receive (l : RequestLoop) (acknowledged : Bool) :
    (l.receive acknowledged).1.cadence.ticker? = l.cadence.ticker? :=
  l.cadence.ticker?_afterCall acknowledged

end RequestLoop

namespace LoopWorld

variable {w : LoopWorld} {t : Ticker} {script : CallScript} {schedule : Nat → Happening}
  {start pace : Nat}

/-- The same world at a later time. -/
def later (w : LoopWorld) (millis : Nat) : LoopWorld := { w with now := w.now + millis }

@[simp] theorem loop_later (w : LoopWorld) (millis : Nat) : (w.later millis).loop = w.loop := rfl

@[simp] theorem now_later (w : LoopWorld) (millis : Nat) :
    (w.later millis).now = w.now + millis := rfl

/-- The loop has nothing to do for so many milliseconds. -/
def RestsFor (w : LoopWorld) (millis : Nat) : Prop := ∀ i < millis, (w.later i).action = .rest

instance (w : LoopWorld) (millis : Nat) : Decidable (w.RestsFor millis) :=
  inferInstanceAs (Decidable (∀ i < millis, _))

/-- The clock moves on only while the loop has nothing to do. -/
def Prompt (w : LoopWorld) (script : CallScript) (schedule : Nat → Happening) : Prop :=
  ∀ k millis, schedule k = .pass millis → (w.run script schedule k).RestsFor millis

/-- Between two calls a loop with an interval looks for the stop first, and then for its tick. -/
theorem action_of_ticker (hphase : w.loop.phase = .waiting)
    (ht : w.loop.cadence.ticker? = some t) :
    w.action = if t.interval = 0 then .crash
      else if w.stop.isTriggered then .finish .stopped
      else if t.deadline ≤ w.now then .send else .rest := by
  simp only [action, RequestLoop.action, hphase, RequestLoop.isUnfit, ht, Option.any_some,
    decide_eq_true_eq, RequestLoop.actionWaiting_of_ticker ht]

theorem due_of_send (hphase : w.loop.phase = .waiting) (ht : w.loop.cadence.ticker? = some t)
    (ha : w.action = .send) : t.deadline ≤ w.now := by
  by_contra hn
  rw [action_of_ticker hphase ht, if_neg hn] at ha
  split at ha
  · cases ha
  · split at ha <;> cases ha

theorem lt_deadline_of_rest (hphase : w.loop.phase = .waiting)
    (ht : w.loop.cadence.ticker? = some t) (ha : w.action = .rest) : w.now < t.deadline := by
  by_contra hn
  rw [action_of_ticker hphase ht, if_pos (Nat.le_of_not_lt hn)] at ha
  split at ha
  · cases ha
  · split at ha <;> cases ha

variable {r : Reaction} {called : Nat}

/-- A call that is taken when it is back takes the time that it takes. -/
theorem action_of_reaction (hphase : w.loop.phase = r.phase called) (hcalled : called ≤ w.now) :
    (r.comesBack = true ∧ called + r.duration ≤ w.now ∧
      ∃ acknowledged, w.action = .receive acknowledged) ∨
    (w.action = .rest ∧ (r.comesBack = true → w.now < called + r.duration)) := by
  cases r with
  | atOnce acknowledged =>
    exact .inl ⟨rfl, hcalled, acknowledged, by
      simp only [action, RequestLoop.action, hphase, Reaction.phase]⟩
  | after millis acknowledged =>
    by_cases hback : called + millis ≤ w.now
    · exact .inl ⟨rfl, hback, acknowledged, by
        simp only [action, RequestLoop.action, hphase, Reaction.phase, if_pos hback]⟩
    · exact .inr ⟨by simp only [action, RequestLoop.action, hphase, Reaction.phase, if_neg hback],
        fun _ => Nat.lt_of_not_le hback⟩
  | hangs | crashes =>
    refine .inr ⟨by simp only [action, RequestLoop.action, hphase, Reaction.phase], fun hback => ?_⟩
    cases hback

/-- A loop that rests goes on to rest until it is due. This is how far a clock may jump that waits
for it. -/
theorem restsFor_of_nextDue (ha : w.action = .rest) {millis : Nat}
    (hdue : ∀ due, w.loop.nextDue = some due → w.now + millis ≤ due) : w.RestsFor millis := by
  intro i hi
  cases hphase : w.loop.phase with
  | waiting =>
    cases ht : w.loop.cadence.ticker? with
    | some t =>
      have hle := hdue t.deadline (by simp only [RequestLoop.nextDue, hphase, ht, Option.map_some])
      have hlt : ¬ t.deadline ≤ (w.later i).now := by
        rw [now_later]
        omega
      have hnow := Nat.not_le.mpr (lt_deadline_of_rest hphase ht ha)
      rw [action_of_ticker hphase ht, if_neg hnow] at ha
      rw [action_of_ticker (w := w.later i) hphase ht, if_neg hlt]
      exact ha
    | none =>
      rw [← ha]
      simp only [action, RequestLoop.action, loop_later, hphase,
        RequestLoop.actionWaiting_of_untimed ht (w.later i).now w.now]
      rfl
  | calling back =>
    cases back with
    | atOnce _ => simp [action, RequestLoop.action, hphase] at ha
    | «at» time _ =>
      have hle := hdue time (by simp only [RequestLoop.nextDue, hphase])
      have hlt : ¬ time ≤ w.now + i := by omega
      simp only [action, RequestLoop.action, loop_later, hphase]
      exact if_neg hlt
    | never => simp only [action, RequestLoop.action, loop_later, hphase]
  | ended _ | crashed | aborted => simp only [action, RequestLoop.action, loop_later, hphase]

/-- Where a loop in this phase stands that has made `n` calls at the times that were foreseen. -/
inductive InStep (script : CallScript) (start pace : Nat) (t : Ticker) (phase : Phase) (now : Nat) :
    Nat → Prop
  | fresh (hphase : phase = .waiting) (hdue : t.deadline = start) (hnow : now = start) :
      InStep script start pace t phase now 0
  | waiting (n : Nat) (hphase : phase = .waiting)
      (hdue : t.deadline = script.callTime start pace n + pace)
      (hback : script.callTime start pace n + (script.reaction n).duration ≤ now)
      (hnow : now ≤ script.callTime start pace (n + 1)) :
      InStep script start pace t phase now (n + 1)
  | calling (n : Nat) (hphase : phase = (script.reaction n).phase (script.callTime start pace n))
      (hdue : t.deadline = script.callTime start pace n + pace)
      (hcalled : script.callTime start pace n ≤ now)
      (hnow : (script.reaction n).comesBack = true →
        now ≤ script.callTime start pace n + (script.reaction n).duration) :
      InStep script start pace t phase now (n + 1)

/-- The calls were made at the times that were foreseen. As long as the loop may call, so will the
next be. -/
structure OnTime (script : CallScript) (start pace : Nat) (w : LoopWorld) : Prop where
  times : w.sent.map Prod.fst =
    (List.range w.sent.length).map (script.callTime start pace)
  stage : w.stop.isTriggered = true ∨ w.loop.isOver = true ∨
    ∃ t, w.loop.cadence.ticker? = some t ∧ t.interval = pace ∧
      InStep script start pace t w.loop.phase w.now w.sent.length

/-- When a call is made, its time has just come, and the next tick is an interval away. -/
theorem InStep.of_send {n : Nat} (h : InStep script start pace t w.loop.phase w.now n)
    (hp : t.interval = pace) (hclear : ∀ i, ¬ (script.reaction i).Overruns pace)
    (hphase : w.loop.phase = .waiting) (hdue : t.deadline ≤ w.now) :
    w.now = script.callTime start pace n ∧ (t.take w.now).deadline = w.now + pace := by
  subst hp
  cases h with
  | fresh _ hstart hnow =>
    exact ⟨by rw [hnow, CallScript.callTime],
      Ticker.deadline_take_of_restarted (.inl (hstart.trans hnow.symm))⟩
  | waiting n _ hnext hback hnow =>
    have hover := hclear n
    rw [Reaction.Overruns] at hover
    rw [CallScript.callTime] at hnow ⊢
    refine ⟨by omega, Ticker.deadline_take_of_restarted ?_⟩
    omega
  | calling n hcall =>
    rw [hphase] at hcall
    cases hr : script.reaction n <;> simp [hr, Reaction.phase] at hcall

/-- A call that is sent on a clock that waits is sent at the time foreseen for it. -/
theorem onTime_send (h : w.OnTime script start pace)
    (hclear : ∀ i, ¬ (script.reaction i).Overruns pace) (hphase : w.loop.phase = .waiting)
    (ha : w.action = .send) (hs : w.stop.isTriggered = false) :
    (w.send script).OnTime script start pace := by
  have ho : w.loop.isOver = false := by simp only [RequestLoop.isOver, hphase]
  rcases h.stage with hstop | hover | ⟨t, ht, hp, hstep⟩
  · rw [hs] at hstop
    cases hstop
  · rw [ho] at hover
    cases hover
  · obtain ⟨hnow, hnext⟩ := hstep.of_send hp hclear hphase (due_of_send hphase ht ha)
    refine ⟨?_, .inr (.inr ⟨t.take w.now, ?_, hp, ?_⟩)⟩
    · rw [length_sent_send, List.range_succ, List.map_append, ← h.times, List.map_singleton, ← hnow]
      exact List.map_append
    · rw [loop_send, RequestLoop.cadence_send, Cadence.ticker?_mapTicker, ht, Option.map_some]
    · rw [length_sent_send]
      refine .calling w.sent.length ?_ ?_ (Nat.le_of_eq hnow.symm) fun _ => ?_
      · rw [loop_send, RequestLoop.phase_send, ← hnow]
      · rw [hnext, hnow]
      · exact Nat.le_trans (Nat.le_of_eq hnow) (Nat.le_add_right _ _)

/-- The answer is taken when the call has taken its time. -/
theorem onTime_receive (h : w.OnTime script start pace) (hc : w.loop.isCalling = true)
    {acknowledged : Bool} (ha : w.action = .receive acknowledged) :
    (w.receive acknowledged).OnTime script start pace := by
  refine ⟨h.times, ?_⟩
  rcases h.stage with hstop | hover | ⟨t, ht, hp, hstep⟩
  · rw [stop_receive, stopFor_of_isTriggered hstop]
    exact .inl hstop
  · rw [RequestLoop.isOver_of_isCalling hc] at hover
    cases hover
  · rcases w.loop.phase_receive acknowledged with hwaits | ⟨why, hends⟩
    · refine .inr (.inr ⟨t, (w.loop.ticker_receive acknowledged).trans ht, hp, ?_⟩)
      rw [sent_receive]
      generalize w.sent.length = n at hstep
      cases hstep with
      | fresh hphase | waiting _ hphase => simp [RequestLoop.isCalling, hphase] at hc
      | calling n hphase hdue hcalled hnow =>
        rcases action_of_reaction hphase hcalled with ⟨hr, hback, -⟩ | ⟨hrest, -⟩
        · refine .waiting n hwaits hdue hback (Nat.le_trans (hnow hr) ?_)
          exact Nat.add_le_add_left (Nat.le_max_right _ _) _
        · rw [hrest] at ha
          cases ha
    · exact .inr (.inl (by simp only [loop_receive, RequestLoop.isOver, hends]))

/-- A turn keeps a loop to the times foreseen. -/
theorem onTime_turn (h : w.OnTime script start pace)
    (hclear : ∀ i, ¬ (script.reaction i).Overruns pace) :
    (w.turn script).OnTime script start pace := by
  rcases w.action_cases with ⟨hrest, -⟩ | ⟨hsend, hphase, hs⟩ | ⟨hc, acknowledged, hreceive⟩ |
    ⟨-, hcrash | ⟨why, hfinish⟩⟩
  · rwa [turn_of_rest hrest]
  · rw [turn, hsend, act]
    exact onTime_send h hclear hphase hsend hs
  · rw [turn, hreceive, act]
    exact onTime_receive h hc hreceive
  · rw [turn, hcrash, act]
    exact ⟨h.times, .inr (.inl rfl)⟩
  · rw [turn, hfinish, act]
    exact ⟨h.times, .inr (.inl rfl)⟩

/-- Time that passes while the loop has nothing to do does not pass the time of the next call. -/
theorem onTime_later (h : w.OnTime script start pace) {millis : Nat} (hr : w.RestsFor millis) :
    (w.later millis).OnTime script start pace := by
  refine ⟨h.times, h.stage.imp id (.imp id ?_)⟩
  rintro ⟨t, ht, hp, hstep⟩
  refine ⟨t, ht, hp, ?_⟩
  cases millis with
  | zero => exact hstep
  | succ i =>
    have hrest := hr i (Nat.lt_succ_self i)
    change InStep script start pace t w.loop.phase (w.now + (i + 1)) w.sent.length
    generalize w.sent.length = n at hstep
    cases hstep with
    | fresh hphase hdue hnow =>
      have hlt : w.now + i < t.deadline := lt_deadline_of_rest (w := w.later i) hphase ht hrest
      omega
    | waiting n hphase hdue hback hnow =>
      have hlt : w.now + i < t.deadline := lt_deadline_of_rest (w := w.later i) hphase ht hrest
      refine .waiting n hphase hdue (Nat.le_trans hback (Nat.le_add_right _ _)) ?_
      rw [CallScript.callTime]
      have hpace := Nat.le_max_left pace (script.reaction n).duration
      omega
    | calling n hphase hdue hcalled hnow =>
      refine .calling n hphase hdue (Nat.le_trans hcalled (Nat.le_add_right _ _)) fun hb => ?_
      have hle : script.callTime start pace n ≤ (w.later i).now :=
        Nat.le_trans hcalled (Nat.le_add_right _ _)
      rcases action_of_reaction (w := w.later i) hphase hle with ⟨-, -, _, ha⟩ | ⟨-, hlt⟩
      · rw [hrest] at ha
        cases ha
      · exact hlt hb

theorem onTime_step (h : w.OnTime script start pace)
    (hclear : ∀ i, ¬ (script.reaction i).Overruns pace) {e : Happening}
    (he : ∀ millis, e = .pass millis → w.RestsFor millis) :
    (w.step script e).OnTime script start pace := by
  cases e with
  | turn => exact onTime_turn h hclear
  | pass millis => exact onTime_later h (he millis rfl)
  | stop reason => exact ⟨h.times, .inl (StopSignal.isTriggered_trigger _ _)⟩
  | trigger | closeTriggers => exact ⟨h.times, h.stage⟩

/-- On a clock that waits, every call is made at the time foreseen for it. -/
theorem onTime_run (h : w.OnTime script start pace)
    (hclear : ∀ i, ¬ (script.reaction i).Overruns pace) (hclock : w.Prompt script schedule)
    (k : Nat) : (w.run script schedule k).OnTime script start pace := by
  induction k with
  | zero => exact h
  | succ k ih => exact onTime_step ih hclear (hclock k)

theorem ticker_started {c : Cadence} {t : Ticker} (hc : c.ticker? = some t) (m : Method)
    (p : Profile) (now : Nat) (stop : StopSignal) (triggers : Triggers) :
    (started m c p now stop triggers).loop.cadence.ticker? = some (t.start now) := by
  rw [started, RequestLoop.start, Cadence.ticker?_mapTicker, hc, Option.map_some]

theorem onTime_started {c : Cadence} {t : Ticker} (hc : c.ticker? = some t) (m : Method)
    (p : Profile) (start : Nat) (stop : StopSignal) (triggers : Triggers) (script : CallScript) :
    (started m c p start stop triggers).OnTime script start t.interval :=
  ⟨rfl, .inr (.inr ⟨t.start start, ticker_started hc m p start stop triggers, rfl,
    .fresh rfl rfl rfl⟩)⟩

end LoopWorld

/-- What happens first, and then a second before each turn. -/
def thenEverySecond (first : List Happening) (k : Nat) : Happening :=
  first.getD k (BoundedSetup.everySecond k)

theorem thenEverySecond_of_le {first : List Happening} {k : Nat} (h : first.length ≤ k) :
    thenEverySecond first k = BoundedSetup.everySecond k :=
  List.getD_eq_default _ _ h

/-- Turns come again and again, whatever happens first. -/
theorem fair_thenEverySecond (first : List Happening) : Fair (thenEverySecond first) := by
  have helapsed : ∀ k, first.length ≤ k → elapsed BoundedSetup.everySecond k ≤
      elapsed (thenEverySecond first) k + elapsed BoundedSetup.everySecond first.length := by
    intro k hk
    induction k, hk using Nat.le_induction with
    | base => exact Nat.le_add_left _ _
    | succ k hk ih =>
      rw [elapsed, elapsed, thenEverySecond_of_le hk]
      omega
  intro k time
  obtain ⟨j, hj, hturn, htime⟩ := BoundedSetup.fair_everySecond (max k first.length)
    (time + elapsed BoundedSetup.everySecond first.length)
  have hlate := Nat.le_trans (Nat.le_max_right _ _) hj
  have hn := helapsed j hlate
  refine ⟨j, Nat.le_trans (Nat.le_max_left _ _) hj, ?_, by omega⟩
  rw [thenEverySecond_of_le hlate, hturn]

/-- The clock does not pass over what the loop is to do next. -/
def LoopWorld.MayPass (w : LoopWorld) : Happening → Prop
  | .pass millis => w.action = .rest ∧ ∀ due ∈ w.loop.nextDue, w.now + millis ≤ due
  | .turn | .stop _ | .trigger | .closeTriggers => True

instance (w : LoopWorld) (e : Happening) : Decidable (w.MayPass e) :=
  match e with
  | .pass millis =>
    inferInstanceAs (Decidable (w.action = .rest ∧ ∀ due ∈ w.loop.nextDue, w.now + millis ≤ due))
  | .turn | .stop _ | .trigger | .closeTriggers => .isTrue trivial

/-- The clock waits for the loop if it does so at first and the loop is then over. -/
theorem LoopWorld.prompt_thenEverySecond {w : LoopWorld} {script : CallScript}
    {first : List Happening}
    (hfirst : ∀ k < first.length,
      (w.run script (thenEverySecond first) k).MayPass (thenEverySecond first k))
    (ho : (w.run script (thenEverySecond first) first.length).loop.isOver = true) :
    w.Prompt script (thenEverySecond first) := by
  intro k millis hk
  rcases Nat.lt_or_ge k first.length with hlt | hle
  · have hpass := hfirst k hlt
    rw [hk] at hpass
    exact restsFor_of_nextDue hpass.1 hpass.2
  · have hover : (w.run script (thenEverySecond first) k).loop.isOver = true := by
      rw [loop_run_of_isOver hle ho, ho]
    exact fun i _ => action_of_isOver (w := (w.run script (thenEverySecond first) k).later i) hover

/-- The clock of a rehearsal waits for each of its loops: it jumps no further than they rest. -/
theorem Rehearsal.restsFor_jump {r : Rehearsal} {n : Nat} {w : LoopWorld} {time : Nat}
    (hl : r.lifecycle.loops[n]? = some w.loop) (hnow : w.now = r.now)
    (hstop : w.stop = r.lifecycle.stop) (htriggers : w.triggers = r.channel)
    (hrest : r.actionOf w.loop = .rest) (hdue : r.nextDue = some time) :
    w.RestsFor (time - r.now) := by
  rcases Nat.le_total time r.now with hle | hle
  · rw [Nat.sub_eq_zero_of_le hle]
    exact fun i hi => absurd hi (Nat.not_lt_zero i)
  · apply LoopWorld.restsFor_of_nextDue
    · rw [← hrest, actionOf, LoopWorld.action, hnow, hstop, htriggers, stopped]
    · intro due hd
      rw [hnow, Nat.add_sub_cancel' hle]
      exact (List.min?_eq_some_iff.mp hdue).2 due
        (List.mem_filterMap.mpr ⟨w.loop, List.mem_of_getElem? hl, hd⟩)

end ScriptedPeer
