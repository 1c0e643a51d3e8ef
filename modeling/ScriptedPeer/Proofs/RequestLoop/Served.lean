import ScriptedPeer.Proofs.Call.Arrival
import ScriptedPeer.Proofs.RequestLoop.Stopping
import ScriptedPeer.Rehearsal.Play

/-!
# A loop beside a service table

The handlers of a service table may raise triggers for a loop. Here the two stand beside each other,
and calls that are dispatched to the table and turns of the loop follow each other in any order. A
call that is complete does in a rehearsal what it does here.
-/

namespace ScriptedPeer

/-- A call leaves the stop as it is, or gives it. -/
theorem ServiceTable.stop_dispatch (t : ServiceTable) (stop : StopSignal) (r : Request) :
    (t.dispatch stop r).stop = stop ∨
      ∃ reason, (t.dispatch stop r).stop = stop.trigger reason := by
  cases ht : t.get? r.method with
  | none => exact .inl (by rw [ServiceTable.dispatch_of_get?_eq_none ht])
  | some h =>
    simp only [ServiceTable.dispatch, ht]
    by_cases hm : r.method = h.method
    · rw [Handler.handle_of_method_eq hm]
      cases hp : h.policy with
      | always => exact .inl (by simp only [Handler.decide, hp])
      | bySequence seen first duplicate =>
        left
        simp only [Handler.decide, hp]
        cases r.key? <;> rfl
      | countThenStop counter =>
        simp only [Handler.decide, hp]
        split
        · exact .inl rfl
        · exact .inr ⟨_, rfl⟩
        · exact .inl rfl
    · exact .inl (by rw [Handler.handle_of_method_ne hm])

theorem StopSignal.trigger_of_reason {s stop : StopSignal} {reason : StopReason}
    (h : stop = s ∨ ∃ q, stop = s.trigger q) (hr : stop.reason = some reason) :
    s.trigger reason = stop := by
  cases hs : s.reason with
  | some first =>
    have ht : s.isTriggered = true := by rw [isTriggered, hs]; rfl
    rcases h with h | ⟨q, h⟩
    · rw [trigger_of_isTriggered ht, h]
    · rw [trigger_of_isTriggered ht, h, trigger_of_isTriggered ht]
  | none =>
    cases stop with
    | mk given =>
      rw [trigger, hs, Option.none_or, ← hr]

/-- A loop beside a service table that may raise triggers for it. -/
structure ServedWorld where
  table : ServiceTable
  world : LoopWorld
  deriving DecidableEq, Repr

inductive ServedHappening where
  /-- A call is dispatched to the table. -/
  | call (r : Request)
  | pass (millis : Nat)
  /-- The loop gets to run. -/
  | turn
  /-- Somebody gives the stop. -/
  | stop (reason : StopReason)
  deriving DecidableEq, Repr

namespace ServedWorld

def start (t : ServiceTable) (l : RequestLoop) (now : Nat) : ServedWorld :=
  ⟨t, { loop := l.start now, now, triggers := { isOpen := t.hasHook } }⟩

/-- A trigger that the loop is not left to take is lost. No more will come when no handler is left
that has a hook. -/
def call (w : ServedWorld) (r : Request) : ServedWorld :=
  let done := w.table.dispatch w.world.stop r
  let raised := done.fired && w.world.loop.usesTrigger && !w.world.loop.isOver
  { table := done.table
    world :=
      { w.world with
        stop := done.stop
        triggers :=
          ⟨w.world.triggers.pending + if raised then 1 else 0, done.table.hasHook⟩ } }

def step (w : ServedWorld) (script : CallScript) : ServedHappening → ServedWorld
  | .call r => w.call r
  | .pass millis => { w with world := w.world.step script (.pass millis) }
  | .turn => { w with world := w.world.turn script }
  | .stop reason => { w with world := w.world.step script (.stop reason) }

def run (w : ServedWorld) (script : CallScript) (schedule : Nat → ServedHappening) :
    Nat → ServedWorld
  | 0 => w
  | k + 1 => (w.run script schedule k).step script (schedule k)

variable {w : ServedWorld} {script : CallScript} {schedule : Nat → ServedHappening}

theorem run_succ (w : ServedWorld) (script : CallScript) (schedule : Nat → ServedHappening)
    (k : Nat) :
    w.run script schedule (k + 1) = (w.run script schedule k).step script (schedule k) := rfl

/-- What a happening is to the clock. A call takes no time. -/
def clock : ServedHappening → Happening
  | .call _ => .pass 0
  | .pass millis => .pass millis
  | .turn => .turn
  | .stop reason => .stop reason

theorem run_of_turn {k : Nat} (h : clock (schedule k) = .turn) :
    (w.run script schedule (k + 1)).world = (w.run script schedule k).world.turn script := by
  rw [run_succ]
  cases he : schedule k with
  | turn => rfl
  | call _ | pass _ | stop _ =>
    rw [he] at h
    cases h

theorem now_run (w : ServedWorld) (script : CallScript) (schedule : Nat → ServedHappening)
    (k : Nat) : (w.run script schedule k).world.now =
      w.world.now + elapsed (fun i => clock (schedule i)) k := by
  induction k with
  | zero => rfl
  | succ k ih =>
    rw [run_succ, elapsed]
    cases schedule k with
    | call r => exact ih
    | pass millis =>
      simp only [step, LoopWorld.step, ih, clock, Happening.duration]
      exact Nat.add_assoc _ _ _
    | turn => exact (LoopWorld.now_act _ _ _).trans ih
    | stop reason => exact ih

/-- A stop that has been given stays as it is. -/
theorem stop_call_of_isTriggered (hs : w.world.stop.isTriggered = true) (r : Request) :
    (w.call r).world.stop = w.world.stop := by
  rcases w.table.stop_dispatch w.world.stop r with h | ⟨reason, h⟩
  · exact h
  · exact h.trans (StopSignal.trigger_of_isTriggered hs reason)

/-- Once the stop has been given, nothing is sent, however many triggers there are. -/
theorem winding_step (hs : w.world.stop.isTriggered = true) (script : CallScript)
    (e : ServedHappening) : w.world.Winding (w.step script e).world := by
  cases e with
  | call r => exact ⟨stop_call_of_isTriggered hs r, rfl, fun _ => rfl⟩
  | turn => exact LoopWorld.winding_turn hs script
  | pass millis => exact LoopWorld.winding_step hs script (.pass millis)
  | stop reason => exact LoopWorld.winding_step hs script (.stop reason)

theorem winding_run {k j : Nat} (hkj : k ≤ j)
    (hs : (w.run script schedule k).world.stop.isTriggered = true) :
    (w.run script schedule k).world.Winding (w.run script schedule j).world := by
  induction j, hkj using Nat.le_induction with
  | base => exact .refl _
  | succ j _ ih => exact ih.trans (winding_step (by rw [ih.stop, hs]) script (schedule j))

end ServedWorld

namespace Rehearsal

/-- A stop that comes of the one there is becomes the stop of the rehearsal. -/
theorem stop_trigger (r : Rehearsal) {stop : StopSignal}
    (h : stop = r.lifecycle.stop ∨ ∃ reason, stop = r.lifecycle.stop.trigger reason) :
    (r.trigger stop.reason).lifecycle.stop = stop := by
  cases hr : stop.reason with
  | none =>
    rcases h with h | ⟨reason, h⟩
    · exact h.symm
    · have ht := StopSignal.isTriggered_trigger r.lifecycle.stop reason
      rw [← h, StopSignal.isTriggered, hr] at ht
      cases ht
  | some reason => exact StopSignal.trigger_of_reason h hr

theorem trigger_frame (r : Rehearsal) (reason : Option StopReason) :
    (r.trigger reason).lifecycle.server = r.lifecycle.server ∧
      (r.trigger reason).lifecycle.loops = r.lifecycle.loops ∧
      (r.trigger reason).triggers = r.triggers := by
  cases reason with
  | none => exact ⟨rfl, rfl, rfl⟩
  | some reason => exact ⟨rfl, rfl, rfl⟩

/-- A trigger is raised if one was fired. -/
theorem raise_frame (r : Rehearsal) (fired : Bool) :
    (if fired then r.raise 1 else r).lifecycle = r.lifecycle ∧
      (if fired then r.raise 1 else r).triggers =
        r.triggers + if fired && r.lifecycle.takesTriggers then 1 else 0 := by
  cases fired with
  | false => exact ⟨rfl, rfl⟩
  | true =>
    cases ht : r.lifecycle.takesTriggers <;> simp [raise, ht]

/-- A call that is complete when its last bytes reach a rehearsal does there what it does beside a
loop that agrees with the rehearsal about the table, the stop and the triggers. -/
theorem deliver_eq_call {r : Rehearsal} {s : Server} (hb : s.broken = []) {n : Nat}
    {c : Connection} {bytes : Wire.Bytes} {closed : Bool} {q : Request} {rest : Wire.Pieces}
    (hc : s.connections[n]? = some c) (ho : c.isOpen = true)
    (hq : CallReading.read (c.arrived ++ [bytes]) = .call q rest) {w : ServedWorld}
    (htable : w.table = s.table) (hstop : w.world.stop = r.lifecycle.stop)
    (htriggers : w.world.triggers.pending = r.triggers)
    (htakes : (w.world.loop.usesTrigger && !w.world.loop.isOver) = r.lifecycle.takesTriggers) :
    let r' := r.deliver s n bytes closed
    let w' := w.call q
    (∃ s', r'.lifecycle.server = some s' ∧ s'.table = w'.table) ∧
      r'.lifecycle.stop = w'.world.stop ∧ r'.triggers = w'.world.triggers.pending ∧
      r'.lifecycle.loops = r.lifecycle.loops := by
  intro r' w'
  obtain ⟨hanswer, hgiven, hfired, -⟩ := Server.answer_eq_dispatch s hb r.lifecycle.stop q
  have harrive : s.arrive r.lifecycle.stop n bytes closed =
      { s.answer r.lifecycle.stop q with
        server := (s.answer r.lifecycle.stop q).server.setConnection n
          ⟨c.arrived ++ [bytes], (s.answer r.lifecycle.stop q).written, false⟩ } := by
    rw [Server.arrive_of_concluded hc ho (.inl (by rw [hq]; rfl)), hq]
    rfl
  have hw' : w' = w.call q := rfl
  have hr' : r' = r.deliver s n bytes closed := rfl
  simp only [ServedWorld.call, htable, hstop] at hw'
  simp only [deliver, harrive, hfired, hgiven] at hr'
  obtain ⟨hlifecycle, hraised⟩ := r.raise_frame (s.table.dispatch r.lifecycle.stop q).fired
  generalize (if (s.table.dispatch r.lifecycle.stop q).fired then r.raise 1 else r) = raised
    at hr' hlifecycle hraised
  obtain ⟨hserver, hloops, hpending⟩ := trigger_frame
    (raised.setServer ((s.answer r.lifecycle.stop q).server.setConnection n
      ⟨c.arrived ++ [bytes], (s.answer r.lifecycle.stop q).written, false⟩))
    (s.table.dispatch r.lifecycle.stop q).stop.reason
  rw [hr', hw']
  refine ⟨⟨_, hserver, hanswer⟩, ?_, ?_, ?_⟩
  · apply stop_trigger
    simp only [setServer, hlifecycle]
    exact s.table.stop_dispatch _ _
  · rw [hpending]
    simp only [setServer, hraised, htriggers, Bool.and_assoc, htakes]
  · rw [hloops]
    simp only [setServer, hlifecycle]

end Rehearsal
end ScriptedPeer
