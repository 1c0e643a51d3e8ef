import ScriptedPeer.Proofs.RequestLoop.Ticking

/-!
# Periodic loops

A periodic loop whose calls take no longer than its interval keeps in step with its ticks: it calls
at every tick until the stop and at no other time, and it never drifts. It ends with the stop alone.
-/

namespace ScriptedPeer.LoopWorld

variable {w : LoopWorld} {t : Ticker} {script : CallScript} {start pace : Nat}

theorem InStep.callTime_le {phase : Phase} {now n k : Nat}
    (h : InStep script start pace t phase now n) (hk : k < n) :
    script.callTime start pace k ≤ now := by
  cases h with
  | fresh => cases hk
  | waiting n _ _ hback _ =>
    have hle := Nat.le_trans (Nat.le_add_right _ _) hback
    exact Nat.le_trans (CallScript.callTime_mono (Nat.le_of_lt_succ hk)) hle
  | calling n _ _ hcalled _ =>
    exact Nat.le_trans (CallScript.callTime_mono (Nat.le_of_lt_succ hk)) hcalled

theorem InStep.le_callTime {phase : Phase} {now n : Nat}
    (h : InStep script start pace t phase now n) (hb : ∀ i, (script.reaction i).comesBack = true) :
    now ≤ script.callTime start pace n := by
  cases h with
  | fresh _ _ hnow => exact Nat.le_of_eq hnow
  | waiting n _ _ _ hnow => exact hnow
  | calling n _ _ _ hnow =>
    exact Nat.le_trans (hnow (hb n)) (Nat.add_le_add_left (Nat.le_max_right _ _) _)

/-- A call was made at every tick before the limit, and perhaps at one that falls on it. No other
call was made. -/
def CalledAtTicks (start pace limit : Nat) (times : List Nat) : Prop :=
  ∃ n, times = (List.range n).map (fun k => start + k * pace) ∧
    ∀ k, (start + k * pace < limit → k < n) ∧ (k < n → start + k * pace ≤ limit)

theorem OnTime.calledAtTicks (h : w.OnTime script start pace)
    (hshort : ∀ i, (script.reaction i).ReturnsWithin pace) (hs : w.stop.isTriggered = false)
    (ho : w.loop.isOver = false) :
    CalledAtTicks start pace w.now (w.sent.map Prod.fst) := by
  have htime (k : Nat) : script.callTime start pace k = start + k * pace :=
    CallScript.callTime_of_short (fun i => (hshort i).duration_le) k
  rcases h.stage with hstop | hover | ⟨t, -, -, hstep⟩
  · rw [hs] at hstop
    cases hstop
  · rw [ho] at hover
    cases hover
  · refine ⟨w.sent.length, ?_, fun k => ⟨fun hlt => ?_, fun hk => ?_⟩⟩
    · rw [h.times]
      exact List.map_congr_left fun k _ => htime k
    · -- A call that was not made yet is not before the next one, and that is still to come.
      by_contra hn
      have hle := hstep.le_callTime fun i => (hshort i).comesBack
      have hmono : script.callTime start pace w.sent.length ≤ script.callTime start pace k :=
        CallScript.callTime_mono (Nat.le_of_not_lt hn)
      rw [← htime k] at hlt
      omega
    · rw [← htime k]
      exact hstep.callTime_le hk

/-- A periodic loop whose calls come back ends with the stop alone. -/
structure Unending (w : LoopWorld) : Prop where
  cadence : ∃ t : Ticker, w.loop.cadence = .periodic t ∧ 0 < t.interval
  phase : w.loop.phase = .waiting ∨ (∃ back, w.loop.phase = .calling back ∧ back ≠ .never) ∨
    w.loop.phase = .ended .stopped ∧ w.stop.isTriggered = true

theorem Unending.of_isOver (h : w.Unending) (ho : w.loop.isOver = true) :
    w.loop.phase = .ended .stopped ∧ w.stop.isTriggered = true := by
  rcases h.phase with hp | ⟨back, hp, -⟩ | hp
  · simp [RequestLoop.isOver, hp] at ho
  · simp [RequestLoop.isOver, hp] at ho
  · exact hp

theorem Unending.phase_ne_never (h : w.Unending) : w.loop.phase ≠ .calling .never := by
  rcases h.phase with hp | ⟨back, hp, hn⟩ | ⟨hp, -⟩ <;> rw [hp]
  · nofun
  · exact fun he => hn (Phase.calling.inj he)
  · nofun

theorem unending_turn (h : w.Unending) (hb : ∀ i, (script.reaction i).comesBack = true) :
    (w.turn script).Unending := by
  obtain ⟨t, hc, hi⟩ := h.cadence
  rcases w.action_cases with ⟨hrest, -⟩ | ⟨hsend, -, -⟩ | ⟨-, acknowledged, hreceive⟩ | ⟨hphase, ha⟩
  · rwa [turn_of_rest hrest]
  · rw [turn, hsend, act]
    refine ⟨⟨t.take w.now, ?_, hi⟩, .inr (.inl ?_)⟩
    · rw [loop_send, RequestLoop.cadence_send, hc, Cadence.mapTicker]
    · exact Reaction.phase_of_comesBack (hb w.sent.length) w.now
  · rw [turn, hreceive, act]
    refine ⟨⟨t, ?_, hi⟩, .inl ?_⟩
    · simp only [loop_receive, RequestLoop.receive, hc, RequestLoop.afterCall]
    · rw [loop_receive, RequestLoop.phase_receive_eq, hc, RequestLoop.afterCall,
        RequestLoop.phaseAfter]
  · have hstopped : w.action = .finish .stopped ∧ w.stop.isTriggered = true := by
      have hticker : w.loop.cadence.ticker? = some t := by rw [hc, Cadence.ticker?]
      rw [action_of_ticker hphase hticker, if_neg (Nat.ne_of_gt hi)] at ha ⊢
      cases hs : w.stop.isTriggered with
      | true => exact ⟨if_pos rfl, rfl⟩
      | false =>
        simp only [hs, Bool.false_eq_true, if_false] at ha
        split at ha <;> rcases ha with ha | ⟨why, ha⟩ <;> cases ha
    rw [turn, hstopped.1, act]
    exact ⟨⟨t, hc, hi⟩, .inr (.inr ⟨rfl, hstopped.2⟩)⟩

theorem unending_run (h : w.Unending) (hb : ∀ i, (script.reaction i).comesBack = true)
    (schedule : Nat → Happening) (k : Nat) : (w.run script schedule k).Unending := by
  induction k with
  | zero => exact h
  | succ k ih =>
    rw [run_succ]
    cases schedule k with
    | turn => exact unending_turn ih hb
    | stop reason =>
      refine ⟨ih.cadence, ih.phase.imp id (.imp id fun hp => ⟨hp.1, ?_⟩)⟩
      exact StopSignal.isTriggered_trigger _ _
    | pass _ | trigger | closeTriggers => exact ⟨ih.cadence, ih.phase⟩

/-- On a clock that waits for the loop, and with calls that take no longer than the interval, a
periodic loop calls at every tick before the stop, perhaps at one that falls on it, and at no other
time. With turns again and again it then ends because of the stop. -/
theorem calls_at_ticks (m : Method) (interval : Nat) (p : Profile) (start : Nat)
    (triggers : Triggers) (script : CallScript) (schedule : Nat → Happening) (hi : 0 < interval)
    (hshort : ∀ i, (script.reaction i).ReturnsWithin interval)
    (hclock : (started m (.periodic { interval }) p start {} triggers).Prompt script schedule) :
    let w := (started m (.periodic { interval }) p start {} triggers).run script schedule
    let called (k limit : Nat) := CalledAtTicks start interval limit ((w k).sent.map Prod.fst)
    (∀ k, (w k).stop.isTriggered = false → called k (w k).now) ∧
    ∀ j reason, schedule j = .stop reason → (w j).stop.isTriggered = false →
      (∀ i, j ≤ i → called i (w j).now ∧ (w i).sent = (w j).sent) ∧
      (Fair schedule → ∃ k, j ≤ k ∧ ∀ i, k ≤ i → (w i).loop.phase = .ended .stopped) := by
  intro w called
  have hb : ∀ i, (script.reaction i).comesBack = true := fun i => (hshort i).comesBack
  have hclear : ∀ i, ¬ (script.reaction i).Overruns interval :=
    fun i hover => Nat.not_le.mpr hover.1 (hshort i).duration_le
  have hkept : ∀ k, (w k).OnTime script start interval :=
    onTime_run (onTime_started (t := { interval }) rfl m p start {} triggers script) hclear hclock
  have hlast : ∀ k, (w k).Unending := unending_run ⟨⟨_, rfl, hi⟩, .inl rfl⟩ hb schedule
  have hcalled : ∀ k, (w k).stop.isTriggered = false → called k (w k).now := by
    intro k hs
    refine (hkept k).calledAtTicks hshort hs (Bool.eq_false_iff.mpr fun ho => ?_)
    rw [((hlast k).of_isOver ho).2] at hs
    cases hs
  refine ⟨hcalled, fun j reason hj hs => ?_⟩
  have hstop : (w (j + 1)).stop.isTriggered = true := by
    simp only [w, run_succ, hj]
    exact StopSignal.isTriggered_trigger _ _
  have hsame : (w (j + 1)).sent = (w j).sent := by
    simp only [w, run_succ, hj]
    rfl
  constructor
  · intro i hji
    have hsent : (w i).sent = (w j).sent := by
      rcases Nat.eq_or_lt_of_le hji with rfl | hlt
      · rfl
      · exact (winding_run hlt hstop).sent.trans hsame
    refine ⟨?_, hsent⟩
    simp only [called, hsent]
    exact hcalled j hs
  · intro hf
    obtain ⟨k, hjk, ho⟩ := exists_isOver_of_stopped hf hstop (hlast (j + 1)).phase_ne_never
    refine ⟨k, Nat.le_of_succ_le hjk, fun i hki => ?_⟩
    simp only [w, loop_run_of_isOver hki ho]
    exact ((hlast k).of_isOver ho).1

/-- Calls that take ten milliseconds each. -/
def steadyCalls : CallScript := ⟨fun _ => .after 10 true, fun _ _ => ⟨0⟩⟩

/-- The stop is given after 25 milliseconds, while the third of these calls is on its way. -/
def steadyTurns : List Happening :=
  [.turn, .pass 10, .turn, .turn, .pass 10, .turn, .turn, .pass 5, .stop .external, .pass 5, .turn,
    .turn]

def steadyHeartbeats : Nat → LoopWorld :=
  (started .heartbeat (.periodic { interval := 10 }) ⟨"me", "me", ⟨"host", 1⟩, 0⟩ 0 {} {}).run
    steadyCalls (thenEverySecond steadyTurns)

/-- A call at each tick, each of which comes just when the call before is back. -/
theorem steadyHeartbeats_called :
    (∀ i, 8 ≤ i → CalledAtTicks 0 10 25 ((steadyHeartbeats i).sent.map Prod.fst)) ∧
    ∃ k, 8 ≤ k ∧ ∀ i, k ≤ i → (steadyHeartbeats i).loop.phase = .ended .stopped := by
  have hclock : (started .heartbeat (.periodic { interval := 10 }) ⟨"me", "me", ⟨"host", 1⟩, 0⟩ 0 {}
      {}).Prompt steadyCalls (thenEverySecond steadyTurns) :=
    prompt_thenEverySecond (by decide) (by decide)
  obtain ⟨-, hstop⟩ := calls_at_ticks .heartbeat 10 ⟨"me", "me", ⟨"host", 1⟩, 0⟩ 0 {} steadyCalls
    (thenEverySecond steadyTurns) (by decide) (fun _ => ⟨rfl, Nat.le_refl 10⟩) hclock
  obtain ⟨hcalled, hend⟩ := hstop 8 .external rfl (by decide)
  exact ⟨fun i hi => (hcalled i hi).1, hend (fair_thenEverySecond steadyTurns)⟩

end ScriptedPeer.LoopWorld
