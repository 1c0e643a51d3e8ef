import ScriptedPeer.Rehearsal.Turn

/-!
# A loop and the rest of the world

What a loop does depends on when it gets its turns, on the time, on how its calls are reacted to, on
the triggers it is given and on the stop. Here all of this is left to a schedule: time passes, the
loop has a turn, others give the stop, and triggers are raised and cease, in any order. A turn takes
one action of the loop, as it does in a rehearsal.
-/

namespace ScriptedPeer

/-- How the calls of a loop are reacted to, in the order in which they are made, and what the clock
tells whenever it is looked at for one of them. -/
structure CallScript where
  reaction : Nat → Reaction
  stamp : Nat → Nat → Timestamp

structure LoopWorld where
  loop : RequestLoop
  now : Nat
  stop : StopSignal := {}
  triggers : Triggers := {}
  /-- The requests that were sent, in order, with the time of each. -/
  sent : List (Nat × Request) := []
  deriving DecidableEq, Repr

inductive Happening where
  | pass (millis : Nat)
  /-- The loop gets to run. -/
  | turn
  /-- Somebody else gives the stop. -/
  | stop (reason : StopReason)
  | trigger
  | closeTriggers
  deriving DecidableEq, Repr

namespace LoopWorld

def requests (w : LoopWorld) : List Request := w.sent.map Prod.snd

def action (w : LoopWorld) : RequestLoop.Action :=
  w.loop.action w.now w.stop.isTriggered w.triggers

/-- The loop sends its next request and may use up a trigger for it. -/
def send (w : LoopWorld) (script : CallScript) : LoopWorld :=
  let number := w.sent.length
  { w with
    loop := w.loop.send w.now ((script.reaction number).phase w.now)
    triggers :=
      if w.loop.usesTrigger then { w.triggers with pending := w.triggers.pending - 1 }
      else w.triggers
    sent := w.sent ++ [(w.now, w.loop.request (script.stamp number))] }

/-- The stop signal after a reason to give it, if there is one. -/
def stopFor (s : StopSignal) : Option StopReason → StopSignal
  | none => s
  | some reason => s.trigger reason

def receive (w : LoopWorld) (acknowledged : Bool) : LoopWorld :=
  let (loop, reason) := w.loop.receive acknowledged
  { w with loop, stop := stopFor w.stop reason }

def act (w : LoopWorld) (script : CallScript) : RequestLoop.Action → LoopWorld
  | .rest => w
  | .send => w.send script
  | .receive acknowledged => w.receive acknowledged
  | .finish why => { w with loop := w.loop.finish why }
  | .crash => { w with loop := w.loop.crash }

def turn (w : LoopWorld) (script : CallScript) : LoopWorld := w.act script w.action

def step (w : LoopWorld) (script : CallScript) : Happening → LoopWorld
  | .pass millis => { w with now := w.now + millis }
  | .turn => w.turn script
  | .stop reason => { w with stop := w.stop.trigger reason }
  | .trigger =>
    { w with
      triggers :=
        if w.triggers.isOpen then { w.triggers with pending := w.triggers.pending + 1 }
        else w.triggers }
  | .closeTriggers => { w with triggers := { w.triggers with isOpen := false } }

/-- The world after the first `k` happenings of a schedule. -/
def run (w : LoopWorld) (script : CallScript) (schedule : Nat → Happening) : Nat → LoopWorld
  | 0 => w
  | k + 1 => (w.run script schedule k).step script (schedule k)

theorem run_succ (w : LoopWorld) (script : CallScript) (schedule : Nat → Happening) (k : Nat) :
    w.run script schedule (k + 1) = (w.run script schedule k).step script (schedule k) := rfl

@[simp] theorem now_act (w : LoopWorld) (script : CallScript) (a : RequestLoop.Action) :
    (w.act script a).now = w.now := by
  cases a <;> rfl

theorem receive_eq {w : LoopWorld} {acknowledged : Bool} {loop : RequestLoop}
    {reason : Option StopReason} (h : w.loop.receive acknowledged = (loop, reason)) :
    w.receive acknowledged = { w with loop, stop := stopFor w.stop reason } := by
  simp only [receive, h]

/-- A turn in which the loop rests changes nothing. -/
theorem turn_of_rest {w : LoopWorld} (h : w.action = .rest) (script : CallScript) :
    w.turn script = w := by
  rw [turn, h, act]

theorem action_of_isOver {w : LoopWorld} (h : w.loop.isOver = true) : w.action = .rest := by
  unfold RequestLoop.isOver at h
  unfold action RequestLoop.action
  split at h <;> simp_all

/-- Between two calls a bounded loop looks for the stop first, and then for its tick. -/
theorem action_of_bounded {w : LoopWorld} {t : Ticker} {c : BoundedCounter} {u : Bool} {a : AtBound}
    (hphase : w.loop.phase = .waiting) (hcadence : w.loop.cadence = .bounded t c u a)
    (ht : 0 < t.interval) :
    w.action = if w.stop.isTriggered then .finish .stopped
      else if t.deadline ≤ w.now then .send else .rest := by
  have hfit : w.loop.isUnfit = false := by
    simp [RequestLoop.isUnfit, hcadence, Cadence.ticker?, Nat.ne_of_gt ht]
  simp [action, RequestLoop.action, hphase, hfit, RequestLoop.actionWaiting, hcadence,
    Ticker.isDue]

/-- A call that comes back is taken when it is due, whether or not the stop has been given. -/
theorem action_of_calling {w : LoopWorld} {back : Return} {acknowledged : Bool}
    (hphase : w.loop.phase = .calling back)
    (hback : back = .atOnce acknowledged ∨ ∃ time, back = .at time acknowledged) :
    w.action = .receive acknowledged ∨
      w.action = .rest ∧ ∃ time, back = .at time acknowledged ∧ w.now < time := by
  rcases hback with rfl | ⟨time, rfl⟩
  · left
    simp only [action, RequestLoop.action, hphase]
  · by_cases hdue : time ≤ w.now
    · left
      simp only [action, RequestLoop.action, hphase, if_pos hdue]
    · right
      refine ⟨?_, time, rfl, Nat.lt_of_not_le hdue⟩
      simp only [action, RequestLoop.action, hphase, if_neg hdue]

/-- Nothing happens any more to a loop that is over. -/
theorem loop_step_of_isOver {w : LoopWorld} (h : w.loop.isOver = true) (script : CallScript)
    (e : Happening) : (w.step script e).loop = w.loop := by
  cases e with
  | turn => rw [step, turn_of_rest (action_of_isOver h)]
  | pass millis => rfl
  | stop reason => rfl
  | trigger => rfl
  | closeTriggers => rfl

theorem reason_stopFor {s : StopSignal} (h : s.reason = none) (reason : Option StopReason) :
    (stopFor s reason).reason = reason := by
  cases reason with
  | none => exact h
  | some q => simp [stopFor, StopSignal.trigger, h]

end LoopWorld

def Happening.duration : Happening → Nat
  | pass millis => millis
  | turn | stop _ | trigger | closeTriggers => 0

/-- How much time has passed before happening `k` of a schedule. -/
def elapsed (schedule : Nat → Happening) : Nat → Nat
  | 0 => 0
  | k + 1 => elapsed schedule k + (schedule k).duration

/-- The loop gets its turns again and again, and time passes beyond any limit. -/
def Fair (schedule : Nat → Happening) : Prop :=
  ∀ k time, ∃ j, k ≤ j ∧ schedule j = .turn ∧ time ≤ elapsed schedule j

/-- Nobody but the loop itself gives the stop. -/
def Undisturbed (schedule : Nat → Happening) : Prop := ∀ k reason, schedule k ≠ .stop reason

theorem LoopWorld.now_run (w : LoopWorld) (script : CallScript) (schedule : Nat → Happening)
    (k : Nat) : (w.run script schedule k).now = w.now + elapsed schedule k := by
  induction k with
  | zero => rfl
  | succ k ih =>
    rw [run_succ, elapsed]
    cases schedule k with
    | pass millis =>
      simp only [step, ih, Happening.duration]
      exact Nat.add_assoc _ _ _
    | turn => exact (now_act _ _ _).trans ih
    | stop reason => exact ih
    | trigger => exact ih
    | closeTriggers => exact ih

/-- What a loop does in a rehearsal is what it does with a turn in a world that agrees with the
rehearsal about the loop, the time, the stop, the triggers and the peer. -/
theorem Rehearsal.act_eq_turn {r : Rehearsal} {n : Nat} {w : LoopWorld} {script : CallScript}
    (hl : r.lifecycle.loops[n]? = some w.loop) (hnow : w.now = r.now)
    (hstop : w.stop = r.lifecycle.stop) (htriggers : w.triggers = r.channel)
    (hreaction : script.reaction w.sent.length = (r.peer.react w.loop.method).1)
    (hstamp : script.stamp w.sent.length = fun _ => r.timeOfDay) :
    let r' := r.act n w.loop (r.actionOf w.loop)
    let w' := w.turn script
    r'.lifecycle.loops[n]? = some w'.loop ∧ r'.now = w'.now ∧ r'.lifecycle.stop = w'.stop ∧
      r'.triggers = w'.triggers.pending ∧
      ∃ more, w'.sent = w.sent ++ more ∧
        r'.sent = more.reverse.map (fun s => ⟨s.1, n, s.2⟩) ++ r.sent := by
  have hn : n < r.lifecycle.loops.length := (List.getElem?_eq_some_iff.mp hl).1
  have ha : r.actionOf w.loop = w.action := by
    rw [Rehearsal.actionOf, LoopWorld.action, hnow, hstop, htriggers, Rehearsal.stopped]
  have hpending : w.triggers.pending = r.triggers := by rw [htriggers, Rehearsal.channel]
  intro r' w'
  simp only [r', w', LoopWorld.turn, ha]
  cases w.action with
  | rest => exact ⟨hl, hnow.symm, hstop.symm, hpending.symm, [], by simp [LoopWorld.act],
      by simp [Rehearsal.act]⟩
  | send =>
    refine ⟨?_, hnow.symm, hstop.symm, ?_, [(w.now, w.loop.request fun _ => r.timeOfDay)], ?_, ?_⟩
    · simp [Rehearsal.act, Rehearsal.sendFrom, Rehearsal.setLoop, LoopWorld.act, LoopWorld.send, hn,
        hreaction, hnow]
    · simp only [Rehearsal.act, Rehearsal.sendFrom, Rehearsal.setLoop, LoopWorld.act,
        LoopWorld.send]
      split
      · rw [hpending]
      · exact hpending.symm
    · simp [LoopWorld.act, LoopWorld.send, hstamp]
    · simp [Rehearsal.act, Rehearsal.sendFrom, Rehearsal.setLoop, hnow]
  | receive acknowledged =>
    simp only [Rehearsal.act, LoopWorld.act, LoopWorld.receive]
    cases w.loop.receive acknowledged with
    | mk loop reason =>
      cases reason with
      | none =>
        simp [Rehearsal.trigger, Rehearsal.setLoop, LoopWorld.stopFor, hn, hnow, hstop, hpending]
      | some reason =>
        simp [Rehearsal.trigger, Rehearsal.rousing, Rehearsal.setLoop, LoopWorld.stopFor, hn, hnow,
          hstop, hpending]
  | finish why =>
    simp [Rehearsal.act, Rehearsal.setLoop, LoopWorld.act, hn, hnow, hstop, hpending]
  | crash =>
    simp [Rehearsal.act, Rehearsal.setLoop, LoopWorld.act, hn, hnow, hstop, hpending]

end ScriptedPeer
