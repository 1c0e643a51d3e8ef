import Mathlib.Data.Nat.Init
import ScriptedPeer.Proofs.RequestLoop.World

/-!
# Loops after the stop

A loop has one call in flight at most, whatever its cadence and whatever happens around it. Once the
stop has been given, by whomever, it sends nothing more: the call that was in flight is still
answered, and the next turn after that is the loop's last. To look for the stop and to send is one
step of a turn, since nothing is waited for in between.
-/

namespace ScriptedPeer

namespace RequestLoop

def isCalling (l : RequestLoop) : Bool := l.phase matches .calling _

/-- How many calls have come back. -/
def answered (l : RequestLoop) : Nat := l.tally.successes + l.tally.failures

/-- How many calls are on their way. -/
def inFlight (l : RequestLoop) : Nat := if l.isCalling then 1 else 0

/-- A loop waits for one call at most. -/
theorem inFlight_le_one (l : RequestLoop) : l.inFlight ≤ 1 := by
  unfold inFlight
  split <;> decide

theorem inFlight_of_calling {l : RequestLoop} (h : l.isCalling = true) : l.inFlight = 1 := if_pos h

theorem inFlight_of_not_calling {l : RequestLoop} (h : l.isCalling = false) : l.inFlight = 0 := by
  rw [inFlight, h]
  rfl

theorem isOver_of_isCalling {l : RequestLoop} (h : l.isCalling = true) : l.isOver = false := by
  cases hphase : l.phase with
  | waiting | calling _ => simp only [isOver, hphase]
  | ended _ | crashed | aborted => simp [isCalling, hphase] at h

/-- A loop that neither waits for a call nor is over is between two calls. -/
theorem phase_eq_waiting {l : RequestLoop} (hc : l.isCalling = false) (ho : l.isOver = false) :
    l.phase = .waiting := by
  cases hphase : l.phase with
  | waiting => rfl
  | calling _ => simp [isCalling, hphase] at hc
  | ended _ | crashed | aborted => simp [isOver, hphase] at ho

@[simp] theorem answered_send (l : RequestLoop) (now : Nat) (phase : Phase) :
    (l.send now phase).answered = l.answered := by
  rw [answered, successes_send, failures_send, answered]

@[simp] theorem answered_receive (l : RequestLoop) (acknowledged : Bool) :
    (l.receive acknowledged).1.answered = l.answered + 1 := by
  simp only [answered, receive, successes_count, failures_count]
  cases acknowledged <;> simp +arith

@[simp] theorem attempts_receive (l : RequestLoop) (acknowledged : Bool) :
    (l.receive acknowledged).1.tally.attempts = l.tally.attempts :=
  attempts_count l.tally acknowledged

/-- A loop whose call has come back waits, or has ended. -/
theorem phase_receive (l : RequestLoop) (acknowledged : Bool) :
    (l.receive acknowledged).1.phase = .waiting ∨
      ∃ why, (l.receive acknowledged).1.phase = .ended why := by
  simp only [receive]
  cases (afterCall l.cadence acknowledged).2.1 with
  | none => exact .inl rfl
  | some why => exact .inr ⟨why, rfl⟩

theorem isCalling_receive (l : RequestLoop) (acknowledged : Bool) :
    (l.receive acknowledged).1.isCalling = false := by
  rcases l.phase_receive acknowledged with h | ⟨why, h⟩ <;> simp [isCalling, h]

/-- Without the stop a loop that waits goes on waiting, sends, or finds that nothing will come. -/
theorem actionWaiting_cases (c : Cadence) (now : Nat) (triggers : Triggers) :
    actionWaiting c now triggers = .rest ∨ actionWaiting c now triggers = .send ∨
      actionWaiting c now triggers = .finish .triggerClosed := by
  cases c with
  | periodic t | bounded t counter untilFirstReply atBound =>
    simp only [actionWaiting]
    split <;> simp
  | single => exact .inr (.inl rfl)
  | onTrigger source =>
    cases source with
    | closed => exact .inr (.inr rfl)
    | shared =>
      simp only [actionWaiting]
      split
      · simp
      · split <;> simp

/-- A loop that waits for a call to come back takes it, or waits for it on. -/
theorem action_of_isCalling {l : RequestLoop} (h : l.isCalling = true) (now : Nat) (stopped : Bool)
    (triggers : Triggers) :
    l.action now stopped triggers = .rest ∨
      ∃ acknowledged, l.action now stopped triggers = .receive acknowledged := by
  cases hphase : l.phase with
  | calling back =>
    cases back with
    | atOnce acknowledged => exact .inr ⟨acknowledged, by simp only [action, hphase]⟩
    | «at» time acknowledged =>
      simp only [action, hphase]
      split
      · exact .inr ⟨acknowledged, rfl⟩
      · exact .inl rfl
    | never => exact .inl (by simp only [action, hphase])
  | waiting | ended _ | crashed | aborted => simp [isCalling, hphase] at h

end RequestLoop

/-- A call either breaks the loop down or is waited for. -/
theorem Reaction.phase_cases (r : Reaction) (now : Nat) :
    r = .crashes ∧ r.phase now = .crashed ∨ ∃ back, r.phase now = .calling back := by
  cases r with
  | crashes => exact .inl ⟨rfl, rfl⟩
  | atOnce _ | after _ _ | hangs => exact .inr ⟨_, rfl⟩

namespace LoopWorld

variable {w : LoopWorld} {script : CallScript} {schedule : Nat → Happening}

@[simp] theorem loop_send (w : LoopWorld) (script : CallScript) : (w.send script).loop =
    w.loop.send w.now ((script.reaction w.sent.length).phase w.now) := rfl

@[simp] theorem length_sent_send (w : LoopWorld) (script : CallScript) :
    (w.send script).sent.length = w.sent.length + 1 := List.length_append

@[simp] theorem loop_receive (w : LoopWorld) (acknowledged : Bool) :
    (w.receive acknowledged).loop = (w.loop.receive acknowledged).1 := rfl

@[simp] theorem sent_receive (w : LoopWorld) (acknowledged : Bool) :
    (w.receive acknowledged).sent = w.sent := rfl

theorem stop_receive (w : LoopWorld) (acknowledged : Bool) :
    (w.receive acknowledged).stop = stopFor w.stop (w.loop.receive acknowledged).2 := rfl

theorem stopFor_of_isTriggered {s : StopSignal} (h : s.isTriggered = true)
    (reason : Option StopReason) : stopFor s reason = s := by
  cases reason with
  | none => rfl
  | some reason => exact StopSignal.trigger_of_isTriggered h reason

/-- What a loop may do: it waits for something, or for nothing any more; it sends, which it does
only before the stop; it takes the answer to its call; or it comes to an end while it has no call. -/
theorem action_cases (w : LoopWorld) :
    (w.action = .rest ∧ (w.loop.phase = .waiting → w.stop.isTriggered = false)) ∨
    (w.action = .send ∧ w.loop.phase = .waiting ∧ w.stop.isTriggered = false) ∨
    (w.loop.isCalling = true ∧ ∃ acknowledged, w.action = .receive acknowledged) ∨
    (w.loop.phase = .waiting ∧ (w.action = .crash ∨ ∃ why, w.action = .finish why)) := by
  cases hphase : w.loop.phase with
  | waiting =>
    have ha : w.action = if w.loop.isUnfit then .crash
        else if w.stop.isTriggered then .finish .stopped
        else RequestLoop.actionWaiting w.loop.cadence w.now w.triggers := by
      simp only [action, RequestLoop.action, hphase]
    rw [ha]
    cases w.loop.isUnfit with
    | true => simp
    | false =>
      cases w.stop.isTriggered with
      | true => simp
      | false =>
        rcases RequestLoop.actionWaiting_cases w.loop.cadence w.now w.triggers with h | h | h <;>
          simp [h]
  | calling back =>
    have hc : w.loop.isCalling = true := by simp only [RequestLoop.isCalling, hphase]
    rcases RequestLoop.action_of_isCalling hc w.now w.stop.isTriggered w.triggers with h | h
    · exact .inl ⟨h, fun hw => by cases hw⟩
    · exact .inr (.inr (.inl ⟨hc, h⟩))
  | ended _ | crashed | aborted =>
    exact .inl ⟨action_of_isOver (by simp only [RequestLoop.isOver, hphase]),
      fun hw => by cases hw⟩

/-- Requests that were sent, calls that have come back, and those on their way. -/
structure Accounted (w : LoopWorld) : Prop where
  attempts : w.loop.tally.attempts = w.sent.length
  answered_le : w.loop.answered ≤ w.sent.length
  le_answered : w.sent.length ≤ w.loop.answered + 1
  /-- Only a call that broke its loop is neither answered nor on its way. -/
  exact : w.loop.phase ≠ .crashed → w.sent.length = w.loop.answered + w.loop.inFlight

/-- Between two calls every call that was sent has been answered. -/
theorem Accounted.of_waiting (h : Accounted w) (hphase : w.loop.phase = .waiting) :
    w.sent.length = w.loop.answered := by
  have hidle : w.loop.isCalling = false := by simp only [RequestLoop.isCalling, hphase]
  rw [h.exact (by simp [hphase]), RequestLoop.inFlight_of_not_calling hidle, Nat.add_zero]

theorem Accounted.of_calling (h : Accounted w) (hc : w.loop.isCalling = true) :
    w.sent.length = w.loop.answered + 1 := by
  have hphase : w.loop.phase ≠ .crashed := by
    intro hp
    simp [RequestLoop.isCalling, hp] at hc
  rw [h.exact hphase, RequestLoop.inFlight_of_calling hc]

theorem accounted_send (h : Accounted w) (hphase : w.loop.phase = .waiting) (script : CallScript) :
    Accounted (w.send script) := by
  have hsent := h.of_waiting hphase
  refine ⟨?_, ?_, ?_, ?_⟩
  · simp [h.attempts]
  · simp [hsent]
  · simp [hsent]
  · intro hcrashed
    rcases (script.reaction w.sent.length).phase_cases w.now with ⟨-, hr⟩ | ⟨back, hr⟩
    · exact absurd (by rw [loop_send, RequestLoop.phase_send, hr]) hcrashed
    · rw [RequestLoop.inFlight_of_calling (by
        rw [loop_send, RequestLoop.isCalling, RequestLoop.phase_send, hr])]
      simp [hsent]

theorem accounted_receive (h : Accounted w) (hc : w.loop.isCalling = true) (acknowledged : Bool) :
    Accounted (w.receive acknowledged) := by
  have hsent := h.of_calling hc
  refine ⟨?_, ?_, ?_, fun _ => ?_⟩
  · simp [h.attempts]
  · simp [hsent]
  · simp [hsent]
  · simp [hsent, RequestLoop.inFlight_of_not_calling (w.loop.isCalling_receive acknowledged)]

/-- Whatever a loop does in its turn, its calls and its answers stay in account. -/
theorem accounted_turn (h : Accounted w) (script : CallScript) : Accounted (w.turn script) := by
  rcases w.action_cases with ⟨ha, -⟩ | ⟨ha, hphase, -⟩ | ⟨hc, acknowledged, ha⟩ | ⟨hphase, ha⟩
  · rwa [turn_of_rest ha]
  · rw [turn, ha, act]
    exact accounted_send h hphase script
  · rw [turn, ha, act]
    exact accounted_receive h hc acknowledged
  · have hsent := h.of_waiting hphase
    rcases ha with ha | ⟨why, ha⟩
    · rw [turn, ha, act]
      exact ⟨h.attempts, h.answered_le, h.le_answered, fun hn => absurd rfl hn⟩
    · rw [turn, ha, act]
      exact ⟨h.attempts, h.answered_le, h.le_answered, fun _ => hsent⟩

theorem accounted_step (h : Accounted w) (script : CallScript) (e : Happening) :
    Accounted (w.step script e) := by
  cases e with
  | turn => exact accounted_turn h script
  | pass _ | stop _ | trigger | closeTriggers =>
    exact ⟨h.attempts, h.answered_le, h.le_answered, h.exact⟩

/-- At any time the calls of a loop are those answered and the one that is waited for. -/
theorem accounted_run (h : Accounted w) (script : CallScript) (schedule : Nat → Happening)
    (k : Nat) : Accounted (w.run script schedule k) := by
  induction k with
  | zero => exact h
  | succ k ih => exact accounted_step ih script (schedule k)

/-- What may still become of a loop after the stop: nothing is sent, and the only call that is on
its way is the one that was. -/
structure Winding (w w' : LoopWorld) : Prop where
  stop : w'.stop = w.stop
  sent : w'.sent = w.sent
  calling : w'.loop.isCalling = true → w'.loop = w.loop

theorem Winding.refl (w : LoopWorld) : Winding w w := ⟨rfl, rfl, fun _ => rfl⟩

theorem Winding.trans {w₁ w₂ w₃ : LoopWorld} (h : Winding w₁ w₂) (h' : Winding w₂ w₃) :
    Winding w₁ w₃ where
  stop := h'.stop.trans h.stop
  sent := h'.sent.trans h.sent
  calling hc := by
    have he := h'.calling hc
    rw [he] at hc ⊢
    exact h.calling hc

/-- After the stop a turn sends nothing and begins no call. -/
theorem winding_turn (hs : w.stop.isTriggered = true) (script : CallScript) :
    Winding w (w.turn script) := by
  rcases w.action_cases with ⟨ha, -⟩ | ⟨-, -, hn⟩ | ⟨hc, acknowledged, ha⟩ | ⟨-, ha | ⟨why, ha⟩⟩
  · rw [turn_of_rest ha]
    exact .refl w
  · rw [hs] at hn
    cases hn
  · rw [turn, ha, act]
    refine ⟨?_, rfl, fun hc' => ?_⟩
    · rw [stop_receive, stopFor_of_isTriggered hs]
    · rw [loop_receive, RequestLoop.isCalling_receive] at hc'
      cases hc'
  · rw [turn, ha, act]
    exact ⟨rfl, rfl, fun hc => by cases hc⟩
  · rw [turn, ha, act]
    exact ⟨rfl, rfl, fun hc => by cases hc⟩

theorem winding_step (hs : w.stop.isTriggered = true) (script : CallScript) (e : Happening) :
    Winding w (w.step script e) := by
  cases e with
  | turn => exact winding_turn hs script
  | stop reason => exact ⟨StopSignal.trigger_of_isTriggered hs reason, rfl, fun _ => rfl⟩
  | pass _ | trigger | closeTriggers => exact ⟨rfl, rfl, fun _ => rfl⟩

/-- From the stop on nothing more is sent, whatever happens. -/
theorem winding_run {k j : Nat} (hkj : k ≤ j)
    (hs : (w.run script schedule k).stop.isTriggered = true) :
    Winding (w.run script schedule k) (w.run script schedule j) := by
  induction j, hkj using Nat.le_induction with
  | base => exact .refl _
  | succ j _ ih => exact ih.trans (winding_step (by rw [ih.stop, hs]) script (schedule j))

/-- A turn that a loop has after the stop, while no call is on its way, is its last. -/
theorem isOver_turn_of_stopped (hs : w.stop.isTriggered = true) (hc : w.loop.isCalling = false)
    (script : CallScript) : (w.turn script).loop.isOver = true := by
  rcases w.action_cases with ⟨ha, hn⟩ | ⟨-, -, hn⟩ | ⟨hc', -⟩ | ⟨-, ha | ⟨why, ha⟩⟩
  · rw [turn_of_rest ha]
    cases ho : w.loop.isOver with
    | true => rfl
    | false =>
      rw [hn (RequestLoop.phase_eq_waiting hc ho)] at hs
      cases hs
  · rw [hs] at hn
    cases hn
  · rw [hc] at hc'
    cases hc'
  · rw [turn, ha, act]
    rfl
  · rw [turn, ha, act]
    rfl

/-- A loop that is over stays as it is. -/
theorem loop_run_of_isOver {k j : Nat} (hkj : k ≤ j)
    (ho : (w.run script schedule k).loop.isOver = true) :
    (w.run script schedule j).loop = (w.run script schedule k).loop := by
  induction j, hkj using Nat.le_induction with
  | base => rfl
  | succ j _ ih => rw [run_succ, loop_step_of_isOver (by rw [ih, ho]), ih]

theorem run_of_turn {i : Nat} (h : schedule i = .turn) :
    w.run script schedule (i + 1) = (w.run script schedule i).turn script := by
  rw [run_succ, h, step]

/-- After the stop a loop without a call on its way is over with its next turn. -/
theorem isOver_run_of_stopped {k i : Nat} (hki : k ≤ i)
    (hs : (w.run script schedule k).stop.isTriggered = true)
    (hc : (w.run script schedule k).loop.isCalling = false) (hi : schedule i = .turn) :
    (w.run script schedule (i + 1)).loop.isOver = true := by
  have h := winding_run hki hs
  rw [run_of_turn hi]
  apply isOver_turn_of_stopped (by rw [h.stop, hs])
  cases hc' : (w.run script schedule i).loop.isCalling with
  | false => rfl
  | true => rw [← hc', h.calling hc', hc]

/-- There is a time from which on the answer to the call can be taken, if it ever comes. -/
theorem exists_back (hc : w.loop.isCalling = true) (hn : w.loop.phase ≠ .calling .never) :
    ∃ due, ∀ w' : LoopWorld, w'.loop = w.loop → due ≤ w'.now →
      ∃ acknowledged, w'.action = .receive acknowledged := by
  cases hphase : w.loop.phase with
  | waiting | ended _ | crashed | aborted => simp [RequestLoop.isCalling, hphase] at hc
  | calling back =>
    cases back with
    | atOnce acknowledged =>
      refine ⟨0, fun w' hw _ => ⟨acknowledged, ?_⟩⟩
      rw [← hw] at hphase
      simp only [action, RequestLoop.action, hphase]
    | «at» time acknowledged =>
      refine ⟨time, fun w' hw hdue => ⟨acknowledged, ?_⟩⟩
      rw [← hw] at hphase
      simp only [action, RequestLoop.action, hphase, if_pos hdue]
    | never => exact absurd hphase hn

/-- With turns again and again a loop is over some time after the stop, unless it waits for a call
that never comes back. -/
theorem exists_isOver_of_stopped (hf : Fair schedule) {k : Nat}
    (hs : (w.run script schedule k).stop.isTriggered = true)
    (hn : (w.run script schedule k).loop.phase ≠ .calling .never) :
    ∃ j, k ≤ j ∧ (w.run script schedule j).loop.isOver = true := by
  -- A loop that has no call on its way needs one more turn.
  have hlast : ∀ i, k ≤ i → (w.run script schedule i).loop.isCalling = false →
      ∃ j, k ≤ j ∧ (w.run script schedule j).loop.isOver = true := by
    intro i hki hc
    obtain ⟨j, hij, hj, -⟩ := hf i 0
    have hs' : (w.run script schedule i).stop.isTriggered = true := by
      rw [(winding_run hki hs).stop, hs]
    exact ⟨j + 1, by omega, isOver_run_of_stopped hij hs' hc hj⟩
  cases hc : (w.run script schedule k).loop.isCalling with
  | false => exact hlast k (Nat.le_refl k) hc
  | true =>
    obtain ⟨due, hdue⟩ := exists_back hc hn
    obtain ⟨i, hki, hi, htime⟩ := hf k due
    cases hc' : (w.run script schedule i).loop.isCalling with
    | false => exact hlast i hki hc'
    | true =>
      obtain ⟨acknowledged, ha⟩ := hdue _ ((winding_run hki hs).calling hc') (by
        rw [now_run]
        omega)
      apply hlast (i + 1) (Nat.le_succ_of_le hki)
      rw [run_of_turn hi, turn, ha, act, loop_receive, RequestLoop.isCalling_receive]

/-- A loop as it is started, whether or not the stop has been given already. -/
def started (m : Method) (c : Cadence) (p : Profile) (now : Nat) (stop : StopSignal)
    (triggers : Triggers) : LoopWorld :=
  { loop := ({ method := m, cadence := c, profile := p } : RequestLoop).start now
    now, stop, triggers }

theorem accounted_started (m : Method) (c : Cadence) (p : Profile) (now : Nat) (stop : StopSignal)
    (triggers : Triggers) : Accounted (started m c p now stop triggers) :=
  ⟨rfl, Nat.le_refl 0, Nat.zero_le 1, fun _ => rfl⟩

/-- Whatever the cadence, and whatever happens: at every moment all calls but one, at most, have
come back. From the stop on, whoever gave it, nothing is sent. Only the call that was on its way is
still on its way or comes back; once it is back, or if there was none, the next turn is the last. -/
theorem run_from_stop (m : Method) (c : Cadence) (p : Profile) (start : Nat) (stop : StopSignal)
    (triggers : Triggers) (script : CallScript) (schedule : Nat → Happening) :
    let w := (started m c p start stop triggers).run script schedule
    (∀ k, (w k).loop.answered ≤ (w k).sent.length ∧
      (w k).sent.length ≤ (w k).loop.answered + 1 ∧
      (w k).loop.tally.attempts = (w k).sent.length ∧
      ((w k).loop.isOver = false →
        (w k).sent.length = (w k).loop.answered + (w k).loop.inFlight)) ∧
    ∀ k, (w k).stop.isTriggered = true →
      (∀ j, k ≤ j →
        (w j).stop = (w k).stop ∧
        (w j).sent = (w k).sent ∧
        (w j).loop.answered ≤ (w k).loop.answered + (w k).loop.inFlight ∧
        ((w j).loop.isCalling = true → (w j).loop = (w k).loop) ∧
        ((w j).loop.isCalling = false →
          ∀ i, j ≤ i → schedule i = .turn → (w (i + 1)).loop.isOver = true)) ∧
      (Fair schedule → (w k).loop.phase ≠ .calling .never →
        ∃ j, k ≤ j ∧ ∀ i, j ≤ i → (w i).loop.isOver = true) := by
  intro w
  have haccount : ∀ k, Accounted (w k) :=
    accounted_run (accounted_started m c p start stop triggers) script schedule
  constructor
  · intro k
    refine ⟨(haccount k).answered_le, (haccount k).le_answered, (haccount k).attempts, ?_⟩
    intro ho
    apply (haccount k).exact
    intro hp
    simp [RequestLoop.isOver, hp] at ho
  · intro k hs
    constructor
    · intro j hkj
      have h : Winding (w k) (w j) := winding_run hkj hs
      refine ⟨h.stop, h.sent, ?_, h.calling, ?_⟩
      · by_cases hp : (w k).loop.phase = .crashed
        · have hsame : (w j).loop = (w k).loop :=
            loop_run_of_isOver hkj (by simp only [RequestLoop.isOver, w, hp])
          rw [hsame]
          exact Nat.le_add_right _ _
        · rw [← (haccount k).exact hp, ← h.sent]
          exact (haccount j).answered_le
      · intro hc i hji hi
        exact isOver_run_of_stopped hji (by rw [← hs]; exact congrArg _ h.stop) hc hi
    · intro hf hn
      obtain ⟨j, hkj, ho⟩ := exists_isOver_of_stopped hf hs hn
      exact ⟨j, hkj, fun i hji => by simp only [w, loop_run_of_isOver hji ho, ho]⟩

/-- A call is sent at once and takes 25 milliseconds; after five of them the stop is given. -/
def stoppedWhileCalling : Nat → Happening
  | 0 => .turn
  | 1 => .pass 5
  | 2 => .stop .external
  | 3 => .pass 20
  | _ => .turn

def slowCalls : CallScript := ⟨fun _ => .after 25 true, fun _ _ => ⟨0⟩⟩

/-- A heartbeat every ten milliseconds, one of which is on its way while the stop is given. -/
def stoppedHeartbeats : Nat → LoopWorld :=
  (started .heartbeat (.periodic { interval := 10 }) ⟨"me", "me", ⟨"host", 1⟩, 0⟩ 0 {} {}).run
    slowCalls stoppedWhileCalling

/-- The stop comes while a call is on its way: that call is answered, and no other is made. -/
theorem stoppedHeartbeats_end :
    (stoppedHeartbeats 3).stop.isTriggered = true ∧ (stoppedHeartbeats 4).loop.isCalling = true ∧
    (∀ j, 3 ≤ j → (stoppedHeartbeats j).sent.length = 1) ∧
    (stoppedHeartbeats 6).loop.isOver = true := by
  have hs : (stoppedHeartbeats 3).stop.isTriggered = true := by decide
  obtain ⟨-, hstopped⟩ := run_from_stop .heartbeat (.periodic { interval := 10 })
    ⟨"me", "me", ⟨"host", 1⟩, 0⟩ 0 {} {} slowCalls stoppedWhileCalling
  obtain ⟨hquiet, -⟩ := hstopped 3 hs
  refine ⟨hs, by decide, fun j hj => ?_, ?_⟩
  · have h := congrArg List.length (hquiet j hj).2.1
    exact h
  · exact (hquiet 5 (by decide)).2.2.2.2 (by decide) 5 (Nat.le_refl 5) rfl

end LoopWorld
end ScriptedPeer
