import Mathlib.Data.Nat.Init
import ScriptedPeer.Proofs.RequestLoop.Served
import ScriptedPeer.Scenario.Catalog
import ScriptedPeer.Scenario.Wiring

/-!
# Echoes

In the echoing scenario every n-th Tell that is received raises a trigger, and the loop sends a Tell
for each. Whatever happens, a trigger that has been raised was sent for or is still there, until the
loop is over. No trigger is lost or used twice, and none comes of another call.
-/

namespace ScriptedPeer

namespace EveryNth

/-- The events that were acted on, one event later. -/
theorem count_div_period (e : EveryNth) :
    (e.count + 1) / e.period = e.count / e.period + if e.decide.1 then 1 else 0 := by
  rw [Nat.succ_div]
  simp only [decide, Nat.dvd_iff_mod_eq_zero, beq_iff_eq]

end EveryNth

namespace ServiceTable

/-- Tells are always acknowledged, `received` of them have been counted, and every `period` of them
raise a trigger. No other method is handled. -/
structure Echoes (t : ServiceTable) (period received : Nat) : Prop where
  tells : ∃ h, t.get? .tell = some h ∧ h.policy = .always ∧ h.hook = some ⟨period, received⟩
  others : ∀ m, m ≠ .tell → t.get? m = none

variable {t : ServiceTable} {period received : Nat}

theorem hasHook_of_get? {m : Method} {h : Handler} (hg : t.get? m = some h)
    (hh : h.hook.isSome = true) : t.hasHook = true := by
  rw [hasHook, List.any_eq_true]
  exact ⟨m, m.mem_all, by rw [hg]; exact hh⟩

theorem Echoes.hasHook (ht : t.Echoes period received) : t.hasHook = true := by
  obtain ⟨h, hg, -, hh⟩ := ht.tells
  exact hasHook_of_get? hg (by rw [hh]; rfl)

/-- A Tell is counted, and nothing else comes of it but the trigger. -/
theorem Echoes.dispatch_tell (ht : t.Echoes period received) (stop : StopSignal) {r : Request}
    (hr : r.method = .tell) :
    (t.dispatch stop r).table.Echoes period (received + 1) ∧ (t.dispatch stop r).stop = stop ∧
      (t.dispatch stop r).fired = ((received + 1) % period == 0) := by
  obtain ⟨h, hg, hp, hh⟩ := ht.tells
  have hm : h.method = .tell := method_of_get? hg
  have hd : h.decide stop r = (.acknowledge, .always, stop) := by simp only [Handler.decide, hp]
  have hc : Handler.countHook h.hook =
      ((received + 1) % period == 0, some ⟨period, received + 1⟩) := by
    rw [hh]
    rfl
  simp only [dispatch, hr, hg, Handler.handle_of_method_eq (hr.trans hm.symm), hd, hc, and_self,
    and_true]
  have hg' : ∀ g : Handler, g.method = .tell → (t.register g).get? .tell = some g := by
    intro g hgm
    rw [← hgm]
    exact get?_register_self t g
  refine ⟨⟨_, hg' _ hm, rfl, rfl⟩, fun m hne => ?_⟩
  rw [get?_register_of_ne t (by rwa [hm])]
  exact ht.others m hne

/-- A call of another method is not. -/
theorem Echoes.dispatch_other (ht : t.Echoes period received) (stop : StopSignal) {r : Request}
    (hr : r.method ≠ .tell) : t.dispatch stop r = ⟨.unimplemented r.method, t, stop, false⟩ :=
  dispatch_of_get?_eq_none (ht.others _ hr) stop

end ServiceTable

namespace LoopWorld

variable {w : LoopWorld}

/-- Between two calls a loop that waits for triggers looks for the stop first. -/
theorem action_of_onTrigger (hphase : w.loop.phase = .waiting)
    (hcadence : w.loop.cadence = .onTrigger .shared) (hopen : w.triggers.isOpen = true) :
    w.action = if w.stop.isTriggered then .finish .stopped
      else if 0 < w.triggers.pending then .send else .rest := by
  have hfit : w.loop.isUnfit = false := by
    simp only [RequestLoop.isUnfit, hcadence, Cadence.ticker?, Option.any_none]
  simp only [action, RequestLoop.action, hphase, hfit, RequestLoop.actionWaiting, hcadence, hopen,
    Bool.false_eq_true, if_false, if_true]

/-- Whatever has become of its call, the loop waits again. -/
theorem receive_of_onTrigger {source : TriggerSource}
    (hcadence : w.loop.cadence = .onTrigger source) (acknowledged : Bool) :
    w.receive acknowledged =
      { w with
        loop :=
          { w.loop with
            tally := RequestLoop.count w.loop.tally acknowledged, phase := .waiting } } := by
  have hr : w.loop.receive acknowledged =
      ({ w.loop with tally := RequestLoop.count w.loop.tally acknowledged, phase := .waiting },
        none) := by
    simp only [RequestLoop.receive, RequestLoop.afterCall, hcadence, RequestLoop.phaseAfter]
    rfl
  rw [receive_eq hr]
  rfl

end LoopWorld

namespace ServedWorld

/-- The requests of an echoing loop: Tells, numbered one after the other. -/
def echoes (p : Profile) (script : CallScript) (count : Nat) : List Request :=
  (List.range count).map fun i =>
    .tell (p.tellItem (SequenceNumber.first.advance i) (script.stamp i 0))

theorem echoes_succ (p : Profile) (script : CallScript) (count : Nat) :
    echoes p script (count + 1) = echoes p script count ++
      [.tell (p.tellItem (SequenceNumber.first.advance count) (script.stamp count 0))] := by
  simp [echoes, List.range_succ]

/-- An echoing loop after `received` Tells: each trigger that was raised was sent for or is still
there, unless the loop is over. -/
structure Echoing (period : Nat) (p : Profile) (script : CallScript) (w : ServedWorld)
    (received : Nat) : Prop where
  table : w.table.Echoes period received
  method : w.world.loop.method = .tell
  cadence : w.world.loop.cadence = .onTrigger .shared
  profile : w.world.loop.profile = p
  next : w.world.loop.next = SequenceNumber.first.advance w.world.sent.length
  requests : w.world.requests = echoes p script w.world.sent.length
  isOpen : w.world.triggers.isOpen = true
  bound : w.world.sent.length + w.world.triggers.pending ≤ received / period
  balance : w.world.loop.isOver = false →
    w.world.sent.length + w.world.triggers.pending = received / period

variable {period received : Nat} {p : Profile} {script : CallScript} {w : ServedWorld}

/-- What a turn of an echoing loop can bring. -/
theorem turn_cases (h : w.Echoing period p script received) :
    let w' := w.world.turn script
    (w' = w.world ∧
      (w.world.loop.phase = .waiting → w.world.stop.isTriggered = false →
        w.world.triggers.pending = 0)) ∨
    (w.world.loop.phase = .waiting ∧ w.world.stop.isTriggered = true ∧
      w' = { w.world with loop := w.world.loop.finish .stopped }) ∨
    (w.world.loop.phase = .waiting ∧ w.world.stop.isTriggered = false ∧
      0 < w.world.triggers.pending ∧ w' = w.world.send script) ∨
    (w.world.loop.isCalling = true ∧ ∃ acknowledged,
      w' = { w.world with
        loop :=
          { w.world.loop with
            tally := RequestLoop.count w.world.loop.tally acknowledged
            phase := .waiting } }) := by
  intro w'
  cases hphase : w.world.loop.phase with
  | waiting =>
    have ha := LoopWorld.action_of_onTrigger hphase h.cadence h.isOpen
    cases hs : w.world.stop.isTriggered with
    | true =>
      rw [hs, if_pos rfl] at ha
      exact .inr (.inl ⟨rfl, rfl, by simp only [w', LoopWorld.turn, ha, LoopWorld.act]⟩)
    | false =>
      rw [hs, if_neg Bool.false_ne_true] at ha
      by_cases hp : 0 < w.world.triggers.pending
      · rw [if_pos hp] at ha
        refine .inr (.inr (.inl ⟨rfl, rfl, hp, ?_⟩))
        simp only [w', LoopWorld.turn, ha, LoopWorld.act]
      · rw [if_neg hp] at ha
        exact .inl ⟨LoopWorld.turn_of_rest ha script, fun _ _ => Nat.eq_zero_of_not_pos hp⟩
  | calling back =>
    have hc : w.world.loop.isCalling = true := by simp only [RequestLoop.isCalling, hphase]
    rcases RequestLoop.action_of_isCalling hc w.world.now w.world.stop.isTriggered
      w.world.triggers with ha | ⟨acknowledged, ha⟩
    · exact .inl ⟨LoopWorld.turn_of_rest ha script, fun hw => by cases hw⟩
    · refine .inr (.inr (.inr ⟨hc, acknowledged, ?_⟩))
      simp only [w', LoopWorld.turn, LoopWorld.action, ha, LoopWorld.act]
      exact LoopWorld.receive_of_onTrigger h.cadence acknowledged
  | ended _ | crashed | aborted =>
    exact .inl ⟨LoopWorld.turn_of_rest (LoopWorld.action_of_isOver
      (by simp only [RequestLoop.isOver, hphase])) script, fun hw => by cases hw⟩

/-- A trigger is sent for by taking it. -/
theorem echoing_send (h : w.Echoing period p script received)
    (hphase : w.world.loop.phase = .waiting) (hp : 0 < w.world.triggers.pending) :
    Echoing period p script { w with world := w.world.send script } received := by
  have hb := h.balance (by simp only [RequestLoop.isOver, hphase])
  have htaken : (w.world.send script).triggers =
      { w.world.triggers with pending := w.world.triggers.pending - 1 } := by
    simp only [LoopWorld.send, RequestLoop.usesTrigger, h.cadence, if_true]
  refine ⟨h.table, ?_, ?_, ?_, ?_, ?_, ?_, ?_, fun _ => ?_⟩
  · simp [h.method]
  · simp [h.cadence, Cadence.mapTicker]
  · simp [h.profile]
  · simp [h.next, h.method, Profile.numbersUsed, SequenceNumber.advance_add]
  · rw [LoopWorld.length_sent_send, echoes_succ, ← h.requests]
    simp [LoopWorld.requests, LoopWorld.send, RequestLoop.request, h.method, h.profile, h.next,
      Profile.request]
  · simp [htaken, h.isOpen]
  · simp only [htaken, LoopWorld.length_sent_send]
    omega
  · simp only [htaken, LoopWorld.length_sent_send]
    omega

theorem echoing_turn (h : w.Echoing period p script received) :
    Echoing period p script { w with world := w.world.turn script } received := by
  rcases turn_cases h with ⟨hw, -⟩ | ⟨-, -, hw⟩ | ⟨hphase, -, hp, hw⟩ | ⟨hc, acknowledged, hw⟩
  · rw [hw]
    exact h
  · rw [hw]
    exact { h with balance := nofun }
  · rw [hw]
    exact echoing_send h hphase hp
  · rw [hw]
    exact { h with balance := fun _ => h.balance (RequestLoop.isOver_of_isCalling hc) }

/-- Every so many Tells one more trigger is there, as long as the loop is there to take it. -/
theorem echoing_tell (h : w.Echoing period p script received) {r : Request}
    (hr : r.method = .tell) : (w.call r).Echoing period p script (received + 1) := by
  obtain ⟨htable, -, hfired⟩ := h.table.dispatch_tell w.world.stop hr
  have hdiv : (received + 1) / period =
      received / period + if (received + 1) % period == 0 then 1 else 0 :=
    EveryNth.count_div_period ⟨period, received⟩
  have hpending : (w.call r).world.triggers.pending = w.world.triggers.pending +
      if ((received + 1) % period == 0) && !w.world.loop.isOver then 1 else 0 := by
    simp only [call, hfired, RequestLoop.usesTrigger, h.cadence, Bool.and_true]
  refine ⟨htable, h.method, h.cadence, h.profile, h.next, h.requests, htable.hasHook, ?_, ?_⟩
  · have hb := h.bound
    have hle : (if ((received + 1) % period == 0) && !w.world.loop.isOver then 1 else 0) ≤
        if (received + 1) % period == 0 then 1 else 0 := by
      cases (received + 1) % period == 0 <;> cases w.world.loop.isOver <;> decide
    rw [hpending, hdiv]
    simp only [call]
    omega
  · intro ho
    have ho' : w.world.loop.isOver = false := ho
    have hb := h.balance ho'
    rw [hpending, hdiv, ho', Bool.not_false, Bool.and_true, ← hb]
    exact (Nat.add_assoc _ _ _).symm

/-- Other calls bring none. -/
theorem call_of_other (h : w.Echoing period p script received) {r : Request}
    (hr : r.method ≠ .tell) : w.call r = w := by
  rw [call, h.table.dispatch_other w.world.stop hr]
  simp only [Bool.false_and, Bool.false_eq_true, if_false, Nat.add_zero,
    h.table.hasHook.trans h.isOpen.symm]

theorem stop_call (h : w.Echoing period p script received) (r : Request) :
    (w.call r).world.stop = w.world.stop := by
  by_cases hr : r.method = .tell
  · exact (h.table.dispatch_tell w.world.stop hr).2.1
  · rw [call_of_other h hr]

/-- How many Tells a happening brings. -/
def tellCount : ServedHappening → Nat
  | .call r => if r.method = .tell then 1 else 0
  | .pass _ | .turn | .stop _ => 0

/-- How many Tells are dispatched before happening `k` of a schedule. -/
def tellsBefore (schedule : Nat → ServedHappening) : Nat → Nat
  | 0 => 0
  | k + 1 => tellsBefore schedule k + tellCount (schedule k)

theorem tellsBefore_mono {schedule : Nat → ServedHappening} {k j : Nat} (hkj : k ≤ j) :
    tellsBefore schedule k ≤ tellsBefore schedule j := by
  induction j, hkj using Nat.le_induction with
  | base => exact Nat.le_refl _
  | succ j _ ih => exact Nat.le_trans ih (Nat.le_add_right _ _)

theorem echoing_step (h : w.Echoing period p script received) (e : ServedHappening) :
    (w.step script e).Echoing period p script (received + tellCount e) := by
  cases e with
  | call r =>
    by_cases hr : r.method = .tell
    · rw [tellCount, if_pos hr]
      exact echoing_tell h hr
    · rw [tellCount, if_neg hr, step, call_of_other h hr]
      exact h
  | turn => exact echoing_turn h
  | pass millis | stop reason => exact { h with }

/-- The handler of the echoing scenario. -/
def echoTable (s : Settings) (p : Profile) : ServiceTable :=
  .ofHandlers
    [{ method := .tell, policy := .always, profile := p, hook := some (.ofPeriod s.tellEvery) }]

/-- The loop of the echoing scenario. -/
def echoLoop (p : Profile) : RequestLoop :=
  { method := .tell, cadence := .onTrigger .shared, profile := p }

theorem wire_echoes (s : Settings) (p : Profile) :
    (Catalog.find? ⟨6, 1⟩).map (·.wire s p true) =
      some (.ok { table := some (echoTable s p), loops := [echoLoop p] }) := rfl

theorem echoing_start (s : Settings) (p : Profile) (now : Nat) (script : CallScript) :
    (start (echoTable s p) (echoLoop p) now).Echoing (max s.tellEvery.toNat 1) p script 0 := by
  have ht : (echoTable s p).Echoes (max s.tellEvery.toNat 1) 0 := by
    refine ⟨⟨_, rfl, rfl, rfl⟩, fun m hm => ?_⟩
    cases m with
    | tell => exact absurd rfl hm
    | heartbeat | greet | narrate => rfl
  exact {
    table := ht
    method := rfl
    cadence := rfl
    profile := rfl
    next := (SequenceNumber.advance_zero _).symm
    requests := rfl
    isOpen := ht.hasHook
    bound := Nat.zero_le _
    balance := fun _ => (Nat.zero_div _).symm }

end ServedWorld
end ScriptedPeer
