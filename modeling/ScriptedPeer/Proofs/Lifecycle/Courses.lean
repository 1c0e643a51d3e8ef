import ScriptedPeer.Lifecycle
import ScriptedPeer.Proofs.RequestLoop.Served

/-!
# How tasks go on after the stop

A shutdown foresees how each of its tasks goes on. A loop takes the answer to a call that is still
on its way, and is over when it sees the stop. A server sees the stop with its next turn and listens
no more, while what arrives on its connections is still answered; it is over when it does not listen
and has no connection open. It is expected to be left alone, so that nothing more arrives where a
connection is open. It is then over after one turn, or never.
-/

namespace ScriptedPeer

namespace Fate

def endsBefore (deadline : Nat) : Fate → Bool
  | ended => true
  | ends time => time < deadline
  | lasts => false

/-- The task is not over yet at this time. -/
def runsAt (now : Nat) : Fate → Bool
  | ended => false
  | ends time => now < time
  | lasts => true

/-- A task that does not end at the very deadline either ends before it or still runs then. -/
theorem runsAt_eq_not_endsBefore {deadline : Nat} {f : Fate} (h : f ≠ .ends deadline) :
    f.runsAt deadline = !f.endsBefore deadline := by
  cases f with
  | ended | lasts => rfl
  | ends time =>
    have hne : time ≠ deadline := fun he => h (he ▸ rfl)
    simp only [runsAt, endsBefore, ← decide_not, decide_eq_decide]
    omega

end Fate

namespace RequestLoop

@[simp] theorem method_receive (l : RequestLoop) (acknowledged : Bool) :
    (l.receive acknowledged).1.method = l.method := rfl

theorem isOver_halt (l : RequestLoop) : l.halt.isOver = true := by
  unfold halt
  split <;> rfl

end RequestLoop

namespace LoopWorld

variable {w : LoopWorld} {script : CallScript} {schedule : Nat → Happening}

/-- After the stop a loop that is between two calls comes to its end in its next turn. -/
theorem turn_of_waiting (hs : w.stop.isTriggered = true) (hphase : w.loop.phase = .waiting)
    (script : CallScript) : (w.turn script).loop = w.loop.halt := by
  simp only [turn, action, RequestLoop.action, hphase, hs, if_true, RequestLoop.halt]
  split <;> rfl

/-- An answer that is due is taken in the next turn. -/
theorem turn_of_due {back : Return} {acknowledged : Bool} (hphase : w.loop.phase = .calling back)
    (hback : back = .atOnce acknowledged ∨ ∃ time ≤ w.now, back = .at time acknowledged)
    (script : CallScript) : (w.turn script).loop = (w.loop.receive acknowledged).1 := by
  rcases hback with rfl | ⟨time, hdue, rfl⟩
  · simp only [turn, action, RequestLoop.action, hphase, act, loop_receive]
  · simp only [turn, action, RequestLoop.action, hphase, if_pos hdue, act, loop_receive]

/-- A loop that goes this course after the stop. As long as the course has not come to its end the
loop stays as it is; it is over as the course says; and it sends nothing. -/
structure GoesBy (w : LoopWorld) (c : Course RequestLoop) (script : CallScript)
    (schedule : Nat → Happening) : Prop where
  busy : ∀ k, c.fate.runsAt (w.run script schedule k).now = true →
    (w.run script schedule k).loop = c.busy ∧ c.busy.isOver = false
  ended : ∀ k, (w.run script schedule k).loop.isOver = true →
    (w.run script schedule k).loop = c.ended
  ends : Fair schedule → c.fate ≠ .lasts → ∃ k, (w.run script schedule k).loop.isOver = true
  quiet : ∀ k, (w.run script schedule k).sent = w.sent

/-- What has become at `now` of a loop after the stop: it is as it was, it has taken the answer to
its call, or it is over. -/
inductive Settling (l : RequestLoop) (start now : Nat) : RequestLoop → Prop
  | same : Settling l start now l
  | back {l' : RequestLoop} (hphase : l'.phase = .waiting) (hover : l'.halt = Lifecycle.drained l)
      (hdue : (Lifecycle.loopFate start l).runsAt now = false) : Settling l start now l'
  | done (hover : (Lifecycle.drained l).isOver = true)
      (hdue : (Lifecycle.loopFate start l).runsAt now = false) :
      Settling l start now (Lifecycle.drained l)

/-- The call has come back. Either the loop is over with it, or it is about to see the stop. -/
theorem settling_receive {l : RequestLoop} {back : Return} {acknowledged : Bool} {start now : Nat}
    (hphase : l.phase = .calling back)
    (hback : back = .atOnce acknowledged ∨ ∃ time, back = .at time acknowledged)
    (hdue : (Lifecycle.loopFate start l).runsAt now = false) :
    Settling l start now (l.receive acknowledged).1 := by
  have hdrained : Lifecycle.drained l =
      if (l.receive acknowledged).1.phase = .waiting then (l.receive acknowledged).1.halt
      else (l.receive acknowledged).1 := by
    rcases hback with rfl | ⟨time, rfl⟩ <;> simp only [Lifecycle.drained, hphase]
  rcases l.phase_receive acknowledged with hw | ⟨why, he⟩
  · rw [if_pos hw] at hdrained
    exact .back hw hdrained.symm hdue
  · rw [if_neg (by simp [he])] at hdrained
    rw [← hdrained]
    refine .done ?_ hdue
    rw [hdrained, RequestLoop.isOver, he]

theorem settling_turn {l l' : RequestLoop} {start : Nat} (hl : w.loop = l')
    (h : Settling l start w.now l') (hs : w.stop.isTriggered = true) (hstart : start ≤ w.now)
    (script : CallScript) : Settling l start w.now (w.turn script).loop := by
  cases h with
  | back hphase hover hdue =>
    rw [turn_of_waiting hs (by rw [hl, hphase]), hl, hover]
    exact .done (by rw [← hover, RequestLoop.isOver_halt]) hdue
  | done hover hdue =>
    rw [turn_of_rest (action_of_isOver (by rw [hl, hover])), hl]
    exact .done hover hdue
  | same =>
    -- Only here a call may still be on its way, so the phase decides whether anything is due.
    have hrest (ha : w.action = .rest) : Settling l start w.now (w.turn script).loop := by
      rw [turn_of_rest ha, hl]
      exact .same
    cases hphase : l.phase with
    | waiting =>
      have hdrained : Lifecycle.drained l = l.halt := by simp only [Lifecycle.drained, hphase]
      rw [turn_of_waiting hs (by rw [hl, hphase]), hl, ← hdrained]
      refine .done (by rw [hdrained, RequestLoop.isOver_halt]) ?_
      simpa [Lifecycle.loopFate, hphase, Fate.runsAt] using hstart
    | ended _ | crashed | aborted =>
      exact hrest (action_of_isOver (by simp only [hl, RequestLoop.isOver, hphase]))
    | calling back =>
      cases back with
      | never => exact hrest (by simp only [action, RequestLoop.action, hl, hphase])
      | atOnce acknowledged =>
        rw [turn_of_due (by rw [hl, hphase]) (.inl rfl), hl]
        refine settling_receive hphase (.inl rfl) ?_
        simpa [Lifecycle.loopFate, hphase, Fate.runsAt] using hstart
      | «at» time acknowledged =>
        by_cases hdue : time ≤ w.now
        · rw [turn_of_due (by rw [hl, hphase]) (.inr ⟨time, hdue, rfl⟩), hl]
          refine settling_receive hphase (.inr ⟨time, rfl⟩) ?_
          simpa [Lifecycle.loopFate, hphase, Fate.runsAt] using hdue
        · exact hrest (by simp only [action, RequestLoop.action, hl, hphase, if_neg hdue])

theorem Settling.later {l l' : RequestLoop} {start now later : Nat} (h : Settling l start now l')
    (hle : now ≤ later) : Settling l start later l' := by
  have hdue : (Lifecycle.loopFate start l).runsAt now = false →
      (Lifecycle.loopFate start l).runsAt later = false := by
    cases Lifecycle.loopFate start l with
    | ended | lasts => exact id
    | ends time =>
      simp only [Fate.runsAt, decide_eq_false_iff_not]
      omega
  cases h with
  | same => exact .same
  | back hphase hover hd => exact .back hphase hover (hdue hd)
  | done hover hd => exact .done hover (hdue hd)

/-- At any time after the stop a loop is on its way to what is expected of it. -/
theorem settling_run (hs : w.stop.isTriggered = true) (script : CallScript)
    (schedule : Nat → Happening) (k : Nat) :
    Settling w.loop w.now (w.run script schedule k).now (w.run script schedule k).loop := by
  induction k with
  | zero => exact .same
  | succ k ih =>
    have hstop : (w.run script schedule k).stop.isTriggered = true := by
      rw [(winding_run (Nat.zero_le k) hs).stop]
      exact hs
    have hnow : w.now ≤ (w.run script schedule k).now := by
      rw [now_run]
      exact Nat.le_add_right _ _
    rw [run_succ]
    cases schedule k with
    | turn =>
      have hsame : ((w.run script schedule k).turn script).now = (w.run script schedule k).now :=
        now_act _ _ _
      rw [step, hsame]
      exact settling_turn rfl ih hstop hnow script
    | pass millis => exact ih.later (Nat.le_add_right _ _)
    | stop reason => exact ih
    | trigger => exact ih
    | closeTriggers => exact ih

theorem isOver_of_runsAt {l : RequestLoop} {start now : Nat}
    (h : (Lifecycle.loopFate start l).runsAt now = true) : l.isOver = false := by
  cases hphase : l.phase with
  | waiting | calling _ => simp only [RequestLoop.isOver, hphase]
  | ended _ | crashed | aborted => simp [Lifecycle.loopFate, hphase, Fate.runsAt] at h

/-- Nothing more is expected of a loop that is over. -/
theorem drained_of_isOver {l : RequestLoop} (h : l.isOver = true) : Lifecycle.drained l = l := by
  cases hphase : l.phase with
  | waiting | calling _ => simp [RequestLoop.isOver, hphase] at h
  | ended _ | crashed | aborted => simp only [Lifecycle.drained, hphase]

/-- Until its time a loop stays as it is. -/
theorem Settling.eq_of_runsAt {l l' : RequestLoop} {start now : Nat} (h : Settling l start now l')
    (hruns : (Lifecycle.loopFate start l).runsAt now = true) : l' = l := by
  cases h with
  | same => rfl
  | back _ _ hdue | done _ hdue =>
    rw [hruns] at hdue
    cases hdue

/-- When it is over, it is what was expected of it. -/
theorem Settling.eq_of_isOver {l l' : RequestLoop} {start now : Nat} (h : Settling l start now l')
    (hover : l'.isOver = true) : l' = Lifecycle.drained l := by
  cases h with
  | same => exact (drained_of_isOver hover).symm
  | done => rfl
  | back hphase =>
    rw [RequestLoop.isOver, hphase] at hover
    cases hover

/-- After the stop a loop goes the course that a shutdown expects of it. -/
theorem goesBy_loopCourse (hs : w.stop.isTriggered = true) (script : CallScript)
    (schedule : Nat → Happening) :
    GoesBy w (Lifecycle.loopCourse w.now w.loop) script schedule where
  busy k hruns := ⟨(settling_run hs script schedule k).eq_of_runsAt hruns, isOver_of_runsAt hruns⟩
  ended k hover := (settling_run hs script schedule k).eq_of_isOver hover
  ends hf hfate := by
    have hs' : (w.run script schedule 0).stop.isTriggered = true := hs
    have hn : (w.run script schedule 0).loop.phase ≠ .calling .never := by
      intro hphase
      have hp : w.loop.phase = .calling .never := hphase
      exact hfate (by simp only [Lifecycle.loopCourse, Lifecycle.loopFate, hp])
    obtain ⟨k, -, hk⟩ := exists_isOver_of_stopped hf hs' hn
    exact ⟨k, hk⟩
  quiet k := (winding_run (Nat.zero_le k) hs).sent

/-- A loop that is over sends nothing more, whatever happens. -/
theorem sent_run_of_isOver (hover : w.loop.isOver = true) (script : CallScript)
    (schedule : Nat → Happening) (k : Nat) : (w.run script schedule k).sent = w.sent := by
  induction k with
  | zero => rfl
  | succ k ih =>
    have hsame : (w.run script schedule k).loop = w.loop :=
      loop_run_of_isOver (k := 0) (Nat.zero_le k) hover
    rw [run_succ, ← ih]
    cases schedule k with
    | turn => rw [step, turn_of_rest (action_of_isOver (by rw [hsame, hover]))]
    | pass _ | stop _ | trigger | closeTriggers => rfl

end LoopWorld

inductive ServerHappening where
  | pass (millis : Nat)
  /-- The server looks for the stop. -/
  | turn
  /-- Bytes arrive on a connection, and its other end may close with them. -/
  | arrive (connection : Nat) (bytes : Wire.Bytes) (closed : Bool)
  deriving DecidableEq, Repr

/-- A server and the time. -/
structure ServerWorld where
  server : Server
  now : Nat
  stop : StopSignal := {}
  deriving DecidableEq, Repr

namespace Server

theorem attend_of_not_listening {s : Server} (h : s.isListening = false) : s.attend true = s := by
  simp only [attend, Bool.not_true, ← h]

/-- What arrives where no connection is open is lost. -/
theorem arrive_of_not_open {s : Server} {n : Nat}
    (h : ∀ c, s.connections[n]? = some c → c.isOpen = false) (stop : StopSignal)
    (bytes : Wire.Bytes) (closed : Bool) :
    s.arrive stop n bytes closed = { server := s, stop } := by
  cases hc : s.connections[n]? with
  | none => simp only [arrive, hc]
  | some c => exact arrive_of_closed hc (h c hc) bytes closed

/-- What arrives leaves the stop as it is, or gives it. -/
theorem stop_arrive (s : Server) (stop : StopSignal) (n : Nat) (bytes : Wire.Bytes)
    (closed : Bool) : (s.arrive stop n bytes closed).stop = stop ∨
      ∃ reason, (s.arrive stop n bytes closed).stop = stop.trigger reason := by
  have hanswer (r : Request) : (s.answer stop r).stop = stop ∨
      ∃ reason, (s.answer stop r).stop = stop.trigger reason := by
    unfold answer
    split
    · exact .inl rfl
    · dsimp only
      split <;> exact s.table.stop_dispatch stop r
  unfold arrive conclude
  split
  · exact .inl rfl
  · split
    · exact .inl rfl
    · dsimp only
      split
      · exact .inl rfl
      · split
        · exact hanswer _
        · exact .inl rfl
        · exact .inl rfl

end Server

namespace ServerWorld

def step (w : ServerWorld) : ServerHappening → ServerWorld
  | .pass millis => { w with now := w.now + millis }
  | .turn => { w with server := w.server.attend w.stop.isTriggered }
  | .arrive n bytes closed =>
    let done := w.server.arrive w.stop n bytes closed
    { w with server := done.server, stop := done.stop }

/-- The world after the first `k` happenings of a schedule. -/
def run (w : ServerWorld) (schedule : Nat → ServerHappening) : Nat → ServerWorld
  | 0 => w
  | k + 1 => (w.run schedule k).step (schedule k)

theorem run_succ (w : ServerWorld) (schedule : Nat → ServerHappening) (k : Nat) :
    w.run schedule (k + 1) = (w.run schedule k).step (schedule k) := rfl

/-- The server has seen the stop, and has no connection open. -/
def isOver (w : ServerWorld) : Bool := !w.server.isListening && w.server.isDrained

/-- Nothing arrives on a connection that is open. -/
def LeftAlone (w : ServerWorld) (schedule : Nat → ServerHappening) : Prop :=
  ∀ k n bytes closed, schedule k = .arrive n bytes closed →
    ∀ c, w.server.connections[n]? = some c → c.isOpen = false

/-- Among the first `k` happenings there was a turn of the server. -/
def hasTurned (schedule : Nat → ServerHappening) : Nat → Bool
  | 0 => false
  | k + 1 => hasTurned schedule k || schedule k = .turn

/-- A server that goes this course after the stop. As long as the course has not come to its end the
server is not over and has at most ceased to listen; it is over as the course says, and stays so. -/
structure GoesBy (w : ServerWorld) (c : Course Server) (schedule : Nat → ServerHappening) :
    Prop where
  busy : ∀ k, c.fate.runsAt (w.run schedule k).now = true →
    (w.run schedule k).isOver = false ∧
      ((w.run schedule k).server = c.busy ∨ (w.run schedule k).server = c.busy.attend true)
  ended : ∀ k, (w.run schedule k).isOver = true → (w.run schedule k).server = c.ended.attend true
  ends : (∀ k, ∃ j, k ≤ j ∧ schedule j = .turn) → c.fate ≠ .lasts →
    ∃ k, ∀ j, k ≤ j → (w.run schedule j).isOver = true

variable {w : ServerWorld} {schedule : Nat → ServerHappening}

/-- Without an open connection a server is always left alone. -/
theorem leftAlone_of_isDrained (h : w.server.isDrained = true)
    (schedule : Nat → ServerHappening) : w.LeftAlone schedule := by
  intro k n bytes closed _ c hc
  simpa using List.all_eq_true.mp h c (List.mem_of_getElem? hc)

theorem hasTurned_of_lt {j k : Nat} (hj : schedule j = .turn) (hjk : j < k) :
    hasTurned schedule k = true := by
  induction k, hjk using Nat.le_induction with
  | base => simp [hasTurned, hj]
  | succ k _ ih => simp [hasTurned, ih]

theorem now_le_run (w : ServerWorld) (schedule : Nat → ServerHappening) (k : Nat) :
    w.now ≤ (w.run schedule k).now := by
  induction k with
  | zero => exact Nat.le_refl _
  | succ k ih =>
    refine Nat.le_trans ih ?_
    rw [run_succ]
    cases schedule k with
    | pass millis => exact Nat.le_add_right _ _
    | turn | arrive _ _ _ => exact Nat.le_refl _

/-- All that a server does that is left alone is to look for the stop. -/
theorem step_of_leftAlone (hs : w.stop.isTriggered = true) {e : ServerHappening}
    (h : ∀ n bytes closed, e = .arrive n bytes closed →
      ∀ c, w.server.connections[n]? = some c → c.isOpen = false) :
    (w.step e).stop = w.stop ∧
      (w.step e).server = if e = .turn then w.server.attend true else w.server := by
  cases e with
  | pass millis => exact ⟨rfl, rfl⟩
  | turn => exact ⟨rfl, by rw [if_pos rfl, step, hs]⟩
  | arrive n bytes closed =>
    rw [step, Server.arrive_of_not_open (h n bytes closed rfl)]
    exact ⟨rfl, rfl⟩

/-- It has seen the stop once it has had a turn. -/
theorem run_of_leftAlone (hs : w.stop.isTriggered = true) (h : w.LeftAlone schedule) (k : Nat) :
    (w.run schedule k).stop = w.stop ∧ (w.run schedule k).server =
      if hasTurned schedule k then w.server.attend true else w.server := by
  induction k with
  | zero => exact ⟨rfl, rfl⟩
  | succ k ih =>
    obtain ⟨hstop, hserver⟩ := ih
    have hconnections : (w.run schedule k).server.connections = w.server.connections := by
      rw [hserver]
      split <;> rfl
    obtain ⟨hstop', hserver'⟩ := step_of_leftAlone (hstop ▸ hs) (hconnections ▸ h k)
    refine ⟨hstop'.trans hstop, ?_⟩
    rw [run_succ, hserver', hserver]
    by_cases hturn : schedule k = .turn
    · simp only [hasTurned, hturn, decide_true, Bool.or_true, if_true]
      split <;> rfl
    · simp only [hasTurned, hturn, decide_false, Bool.or_false, if_false]

/-- Left alone, a server keeps its connections as they are. -/
theorem isDrained_run (hs : w.stop.isTriggered = true) (h : w.LeftAlone schedule) (k : Nat) :
    (w.run schedule k).server.isDrained = w.server.isDrained := by
  rw [(run_of_leftAlone hs h k).2]
  split <;> rfl

theorem isDrained_of_runsAt {s : Server} {start now : Nat} (hnow : start ≤ now)
    (h : (Lifecycle.serverFate start s).runsAt now = true) : s.isDrained = false := by
  unfold Lifecycle.serverFate at h
  split at h
  · next hdrained => simpa using hdrained
  · split at h
    · exact absurd (of_decide_eq_true h) (Nat.not_lt.mpr hnow)
    · cases h

theorem isDrained_of_fate {s : Server} {start : Nat} (h : Lifecycle.serverFate start s ≠ .lasts) :
    s.isDrained = true := by
  by_cases hdrained : s.isDrained = true
  · exact hdrained
  · exact absurd (if_pos (by simpa using hdrained)) h

/-- After the stop a server that is left alone goes the course that a shutdown expects of it. -/
theorem goesBy_serverCourse (hs : w.stop.isTriggered = true) (h : w.LeftAlone schedule) :
    w.GoesBy (Lifecycle.serverCourse w.now w.server) schedule where
  busy k hruns := by
    have hdrained := isDrained_of_runsAt (w.now_le_run schedule k) hruns
    refine ⟨by rw [isOver, isDrained_run hs h, hdrained, Bool.and_false], ?_⟩
    rw [(run_of_leftAlone hs h k).2]
    split
    · exact .inr rfl
    · exact .inl rfl
  ended k hover := by
    rw [isOver, Bool.and_eq_true, Bool.not_eq_true'] at hover
    rw [← Server.attend_of_not_listening hover.1, (run_of_leftAlone hs h k).2]
    split <;> rfl
  ends hturns hfate := by
    obtain ⟨j, -, hj⟩ := hturns 0
    refine ⟨j + 1, fun k hk => ?_⟩
    have hserver := (run_of_leftAlone hs h k).2
    rw [hasTurned_of_lt hj hk, if_pos rfl] at hserver
    have hdrained : w.server.isDrained = true := isDrained_of_fate hfate
    rw [isOver, isDrained_run hs h, hdrained, hserver]
    rfl

end ServerWorld

/-- Turns of a server in a rehearsal and what is delivered to it are steps of the server. -/
theorem Rehearsal.server_eq_step {r : Rehearsal} {w : ServerWorld}
    (hserver : r.lifecycle.server = some w.server) (hstop : w.stop = r.lifecycle.stop) :
    (.server ∉ r.dismissed →
      let r' := (r.turn .server).2
      let w' := w.step .turn
      r'.lifecycle.server = some w'.server ∧ r'.lifecycle.stop = w'.stop) ∧
    ∀ n bytes closed,
      let r' := r.deliver w.server n bytes closed
      let w' := w.step (.arrive n bytes closed)
      r'.lifecycle.server = some w'.server ∧ r'.lifecycle.stop = w'.stop := by
  constructor
  · intro hkept
    simp only [turn, if_neg hkept, hserver, ServerWorld.step, hstop]
    exact ⟨rfl, rfl⟩
  · intro n bytes closed
    simp only [deliver, ServerWorld.step, hstop]
    obtain ⟨hlifecycle, -⟩ := r.raise_frame (w.server.arrive r.lifecycle.stop n bytes closed).fired
    constructor
    · exact (trigger_frame _ _).1
    · apply stop_trigger
      simp only [setServer, hlifecycle]
      exact w.server.stop_arrive _ n bytes closed

end ScriptedPeer
