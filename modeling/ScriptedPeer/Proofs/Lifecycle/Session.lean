import Mathlib.Data.Nat.Init
import ScriptedPeer.Proofs.Lifecycle.Starting

/-!
# A lifecycle passes its states once

A lifecycle is started and waited for by calls that come one after the other, in any order and any
number, while its tasks go on and the stop is given by anyone. Whatever the calls are, its states
are passed in one direction, its tasks are started once, and there is one report: the first wait
that is done makes it, and all later ones return it.
-/

namespace ScriptedPeer

/-- Where the call stands that is being made. -/
inductive CallStage where
  | idle
  /-- It waits for the stop. -/
  | waiting
  | draining (reason : StopReason) (since : Nat)
  deriving DecidableEq, Repr

/-- A lifecycle and the call that is being made on it. -/
structure Session where
  lifecycle : Lifecycle
  stage : CallStage := .idle
  deriving DecidableEq, Repr

/-- What happens in a session. Only a session that is idle takes another call. -/
inductive SessionEvent where
  | start (network : Network) (now : Nat)
  | wait
  | run (network : Network) (now : Nat)
  /-- The call that waits sees the stop, if it has been given, and the drain begins. -/
  | see (now : Nat)
  /-- The drain is over, and with it the call. -/
  | finish
  /-- Somebody gives the stop. -/
  | stop (reason : StopReason)
  /-- The tasks go on in some way. -/
  | goOn (server : Server → Server) (loop : Nat → RequestLoop → RequestLoop)

namespace Lifecycle

/-- A lifecycle as it is built, before anything is done with it. -/
def built (scenario : String) (stop : StopSignal) (drain : Nat)
    (listen : Option (Endpoint × ServiceTable)) (pending : List RequestLoop)
    (broken : List Method) : Lifecycle :=
  { scenario, stop, drain, listen, pending, broken }

def goOn (l : Lifecycle) (server : Server → Server) (loop : Nat → RequestLoop → RequestLoop) :
    Lifecycle :=
  { l with server := l.server.map server, loops := l.loops.mapIdx loop }

def giveStop (l : Lifecycle) (reason : StopReason) : Lifecycle :=
  { l with stop := l.stop.trigger reason }

/-- A start listens at an endpoint, if there is one, and starts the loops; or it cannot and loses
the endpoint; or, when the lifecycle has been started before, it does nothing. -/
theorem start_cases (l : Lifecycle) (network : Network) (now : Nat) :
    (l.state ≠ .starting ∧ l.start network now = (l, none)) ∨
    (l.state = .starting ∧ ∃ fault, l.start network now = ({ l with listen := none }, some fault)) ∨
    (l.state = .starting ∧ ∃ server, (l.listen = none → server = l.server) ∧
      l.start network now = ({ l with listen := none, server }.launch now, none)) := by
  by_cases hs : l.state = .starting
  · right
    cases hl : l.listen with
    | none =>
      refine .inr ⟨hs, l.server, fun _ => rfl, ?_⟩
      rw [start_of_no_listen hs hl, ← hl]
    | some at_ =>
      obtain ⟨endpoint, table⟩ := at_
      cases hb : network.listen endpoint with
      | error fault =>
        exact .inl ⟨hs, fault, by simp only [start, hs, hl, hb]⟩
      | ok port =>
        let server : Server := { endpoint := endpoint.withPort port, table, broken := l.broken }
        refine .inr ⟨hs, some server, fun hnone => ?_, by simp only [start, hs, hl, hb, server]⟩
        cases hnone
  · exact .inl ⟨hs, start_of_started hs network now⟩

/-- A shutdown lets every task come to its end and leaves the rest as it is. -/
theorem endShutdown_frame (l : Lifecycle) (reason : StopReason) (now : Nat) :
    let done := (l.endShutdown reason now).1
    done.state = .stopped ∧ done.stop = l.stop ∧ done.listen = l.listen ∧
      done.pending = l.pending ∧ done.server.isSome = l.server.isSome ∧
      done.loops.length = l.loops.length ∧
      ∃ r, done.report = some r ∧ r.state = .stopped ∧ r.stopReason = reason := by
  refine ⟨rfl, rfl, rfl, rfl, ?_, ?_, _, rfl, rfl, rfl⟩
  · simp only [endShutdown, drainTasks, awaitedServer]
    cases hs : l.server with
    | none => rfl
    | some s => cases l.awaitsServer <;> rfl
  · simp only [endShutdown, drainTasks, awaitedLoops]
    cases l.awaitsLoops <;> simp

end Lifecycle

namespace SessionEvent

/-- The reason of a stop. -/
def reason? : SessionEvent → Option StopReason
  | stop reason => some reason
  | start .. | wait | run .. | see _ | finish | goOn .. => none

/-- The reason of the first stop, whether it was given before or comes with one of the first `k`
events. -/
def firstReason (stop : StopSignal) (schedule : Nat → SessionEvent) (k : Nat) :
    Option StopReason :=
  stop.reason.or ((List.range k).findSome? fun i => (schedule i).reason?)

end SessionEvent

namespace Session

open SessionEvent (firstReason)

/-- Goes on to wait for the stop, unless there is a report already. -/
def await (s : Session) : Session :=
  if s.lifecycle.report.isSome then s else { s with stage := .waiting }

def step (s : Session) (e : SessionEvent) : Session :=
  match e, s.stage with
  | .start network now, .idle => { s with lifecycle := (s.lifecycle.start network now).1 }
  | .wait, .idle => s.await
  | .run network now, .idle => match s.lifecycle.start network now with
    | (lifecycle, some _) => { s with lifecycle }
    | (lifecycle, none) => { s with lifecycle }.await
  | .see now, .waiting => match s.lifecycle.stop.reason with
    | none => s
    | some reason => ⟨s.lifecycle.beginShutdown, .draining reason now⟩
  | .finish, .draining reason since => ⟨(s.lifecycle.endShutdown reason since).1, .idle⟩
  | .stop reason, _ => { s with lifecycle := s.lifecycle.giveStop reason }
  | .goOn server loop, _ => { s with lifecycle := s.lifecycle.goOn server loop }
  | _, _ => s

/-- The session after the first `k` events of a schedule. -/
def run (s : Session) (schedule : Nat → SessionEvent) : Nat → Session
  | 0 => s
  | k + 1 => (s.run schedule k).step (schedule k)

/-- The network and the time that a call starts with, if it starts anything. -/
def starts (s : Session) (e : SessionEvent) : Option (Network × Nat) :=
  match e, s.stage with
  | .start network now, .idle | .run network now, .idle => some (network, now)
  | _, _ => none

/-- The endpoint that is tried in this event. -/
def tried (s : Session) (e : SessionEvent) : Option Endpoint :=
  if (s.starts e).isSome ∧ s.lifecycle.state = .starting then s.lifecycle.listen.map Prod.fst
  else none

/-- The time at which the tasks are started, if this event starts them. -/
def launched (s : Session) (e : SessionEvent) : Option Nat :=
  match s.starts e with
  | some (network, now) =>
    if s.lifecycle.state = .starting ∧ (s.lifecycle.start network now).2 = none then some now
    else none
  | none => none

/-- The report that a call returns which is done with this event. -/
def returned (s : Session) (e : SessionEvent) : Option RunReport :=
  match e, s.stage with
  | .wait, .idle => s.lifecycle.report
  | .run network now, .idle => match s.lifecycle.start network now with
    | (lifecycle, none) => lifecycle.report
    | (_, some _) => none
  | .finish, .draining reason since => (s.lifecycle.endShutdown reason since).1.report
  | _, _ => none

theorem run_succ (s : Session) (schedule : Nat → SessionEvent) (k : Nat) :
    s.run schedule (k + 1) = (s.run schedule k).step (schedule k) := rfl

/-- All that an event can do to a session. -/
inductive Steps (s : Session) (e : SessionEvent) : Session → Prop
  | same (hstarts : s.starts e = none) (hreason : e.reason? = none) : Steps s e s
  | start {network : Network} {now : Nat} {stage : CallStage} (hidle : s.stage = .idle)
      (hstarts : s.starts e = some (network, now)) (hreason : e.reason? = none)
      (hstage : stage = .idle ∨
        stage = .waiting ∧ (s.lifecycle.start network now).1.report = none) :
      Steps s e ⟨(s.lifecycle.start network now).1, stage⟩
  | wait (hstarts : s.starts e = none) (hreason : e.reason? = none)
      (hidle : s.stage = .idle) (hreport : s.lifecycle.report = none) :
      Steps s e { s with stage := .waiting }
  | see {reason : StopReason} {now : Nat} (hstarts : s.starts e = none)
      (hreason : e.reason? = none) (hwaiting : s.stage = .waiting)
      (hstop : s.lifecycle.stop.reason = some reason) :
      Steps s e ⟨s.lifecycle.beginShutdown, .draining reason now⟩
  | finish {reason : StopReason} {since : Nat} (hstarts : s.starts e = none)
      (hreason : e.reason? = none) (hdraining : s.stage = .draining reason since) :
      Steps s e ⟨(s.lifecycle.endShutdown reason since).1, .idle⟩
  | stop {reason : StopReason} (hstarts : s.starts e = none) (hreason : e.reason? = some reason) :
      Steps s e { s with lifecycle := s.lifecycle.giveStop reason }
  | goOn {server : Server → Server} {loop : Nat → RequestLoop → RequestLoop}
      (hstarts : s.starts e = none) (hreason : e.reason? = none) :
      Steps s e { s with lifecycle := s.lifecycle.goOn server loop }

theorem steps_step (s : Session) (e : SessionEvent) : s.Steps e (s.step e) := by
  obtain ⟨l, stage⟩ := s
  cases e with
  | stop reason => exact .stop rfl rfl
  | goOn server loop => exact .goOn rfl rfl
  | start network now =>
    cases stage with
    | idle => exact .start rfl rfl rfl (.inl rfl)
    | waiting | draining _ _ => exact .same rfl rfl
  | wait =>
    cases stage with
    | waiting | draining _ _ => exact .same rfl rfl
    | idle =>
      simp only [step, await]
      cases hreport : l.report with
      | some report => exact .same rfl rfl
      | none => exact .wait rfl rfl rfl hreport
  | run network now =>
    cases stage with
    | waiting | draining _ _ => exact .same rfl rfl
    | idle =>
      have hstep (stage : CallStage) (hstage : stage = .idle ∨
          stage = .waiting ∧ (l.start network now).1.report = none) :
          Steps ⟨l, .idle⟩ (.run network now) ⟨(l.start network now).1, stage⟩ :=
        .start rfl rfl rfl hstage
      simp only [step, await]
      cases hstart : l.start network now with
      | mk l' fault =>
        rw [hstart] at hstep
        cases fault with
        | some fault => exact hstep .idle (.inl rfl)
        | none =>
          simp only
          cases hreport : l'.report with
          | some report => exact hstep .idle (.inl rfl)
          | none => exact hstep .waiting (.inr ⟨rfl, hreport⟩)
  | see now =>
    cases stage with
    | idle | draining _ _ => exact .same rfl rfl
    | waiting =>
      simp only [step]
      cases hstop : l.stop.reason with
      | none => exact .same rfl rfl
      | some reason => exact .see rfl rfl rfl hstop
  | finish =>
    cases stage with
    | idle | waiting => exact .same rfl rfl
    | draining reason since => exact .finish rfl rfl rfl

/-- What a call returns is the report that is there afterwards, and the call is done. -/
theorem report_of_returned {s : Session} {e : SessionEvent} {r : RunReport}
    (h : s.returned e = some r) :
    (s.step e).lifecycle.report = some r ∧ (s.step e).stage = .idle := by
  obtain ⟨l, stage⟩ := s
  cases e with
  | start _ _ | see _ | stop _ | goOn _ _ => cases stage <;> cases h
  | wait =>
    cases stage with
    | waiting | draining _ _ => cases h
    | idle =>
      have hreport : l.report = some r := h
      simp only [step, await, hreport, Option.isSome_some, if_true, and_self]
  | run network now =>
    cases stage with
    | waiting | draining _ _ => cases h
    | idle =>
      simp only [returned] at h
      simp only [step]
      cases hstart : l.start network now with
      | mk l' fault =>
        rw [hstart] at h
        cases fault with
        | some fault => cases h
        | none =>
          have hreport : l'.report = some r := h
          simp only [await, hreport, Option.isSome_some, if_true, and_self]
  | finish =>
    cases stage with
    | idle | waiting => cases h
    | draining reason since => exact ⟨h, rfl⟩

/-- How far a session can have come, when these loops were to be started. -/
structure Sound (loops : List RequestLoop) (s : Session) : Prop where
  /-- Nothing has been started before the start. -/
  new : s.lifecycle.state = .starting →
    s.lifecycle.server = none ∧ s.lifecycle.loops = [] ∧ s.lifecycle.pending = loops
  /-- As long as no drain has begun, the lifecycle starts or runs. -/
  up : s.lifecycle.report = none → (∀ reason since, s.stage ≠ .draining reason since) →
    s.lifecycle.state = .starting ∨ s.lifecycle.state = .running
  draining : ∀ reason since, s.stage = .draining reason since →
    s.lifecycle.report = none ∧ s.lifecycle.state = .stopping ∧
      s.lifecycle.stop.reason = some reason
  reported : ∀ r, s.lifecycle.report = some r →
    s.stage = .idle ∧ s.lifecycle.state = .stopped ∧ r.state = .stopped ∧
      s.lifecycle.stop.reason = some r.stopReason

variable {loops : List RequestLoop} {s s' : Session} {e : SessionEvent}

/-- A call that waits for the stop waits in a lifecycle that has not begun to drain. -/
theorem Sound.up_of_waiting (h : s.Sound loops) (hwaiting : s.stage = .waiting) :
    s.lifecycle.report = none ∧
      (s.lifecycle.state = .starting ∨ s.lifecycle.state = .running) := by
  have hreport : s.lifecycle.report = none := by
    cases hr : s.lifecycle.report with
    | none => rfl
    | some r =>
      have hidle := (h.reported r hr).1
      rw [hwaiting] at hidle
      cases hidle
  exact ⟨hreport, h.up hreport (by rw [hwaiting]; nofun)⟩

/-- A stop that was given already stays as it is. -/
theorem reason_giveStop {l : Lifecycle} {first : StopReason} (h : l.stop.reason = some first)
    (reason : StopReason) : (l.giveStop reason).stop.reason = some first := by
  simp only [Lifecycle.giveStop, StopSignal.trigger, h, Option.some_or]

/-- A start keeps a session sound, whatever the network answers. -/
theorem Sound.started (h : s.Sound loops) (hidle : s.stage = .idle) {network : Network}
    {now : Nat} {stage : CallStage} (hstage : stage = .idle ∨
      stage = .waiting ∧ (s.lifecycle.start network now).1.report = none) :
    Sound loops ⟨(s.lifecycle.start network now).1, stage⟩ := by
  have hnot : ∀ reason since, stage ≠ .draining reason since := by
    rcases hstage with rfl | ⟨rfl, -⟩ <;> nofun
  have hcalm : ∀ reason since, s.stage ≠ .draining reason since := by
    rw [hidle]
    nofun
  rcases s.lifecycle.start_cases network now with ⟨hs, hstart⟩ | ⟨hs, fault, hstart⟩ |
    ⟨hs, server, -, hstart⟩
  · rw [hstart] at hstage ⊢
    refine ⟨fun hn => absurd hn hs, fun hr _ => h.up hr hcalm,
      fun reason since hd => absurd hd (hnot reason since), fun r hr => ?_⟩
    refine ⟨?_, (h.reported r hr).2⟩
    rcases hstage with rfl | ⟨-, hnone⟩
    · rfl
    · rw [hr] at hnone
      cases hnone
  · rw [hstart]
    refine ⟨fun _ => h.new hs, fun _ _ => .inl hs,
      fun reason since hd => absurd hd (hnot reason since), fun r hr => ?_⟩
    have hstopped := (h.reported r hr).2.1
    rw [hs] at hstopped
    cases hstopped
  · rw [hstart]
    refine ⟨nofun, fun _ _ => .inr rfl,
      fun reason since hd => absurd hd (hnot reason since), fun r hr => ?_⟩
    have hstopped := (h.reported r hr).2.1
    rw [hs] at hstopped
    cases hstopped

theorem sound_step (h : s.Sound loops) (hstep : s.Steps e s') : s'.Sound loops := by
  cases hstep with
  | same => exact h
  | start hidle _ _ hstage => exact h.started hidle hstage
  | wait _ _ hidle hreport =>
    have hup := h.up hreport (by simp [hidle])
    refine ⟨h.new, fun _ _ => hup, fun reason since hd => ?_, fun r hr => ?_⟩
    · cases hd
    · rw [hreport] at hr
      cases hr
  | see _ _ hwaiting hstop =>
    obtain ⟨hreport, -⟩ := h.up_of_waiting hwaiting
    refine ⟨fun hn => ?_, fun _ hnot => absurd rfl (hnot _ _), fun reason since hd => ?_,
      fun r hr => ?_⟩
    · cases hn
    · cases hd
      exact ⟨hreport, rfl, hstop⟩
    · rw [Lifecycle.beginShutdown] at hr
      rw [hreport] at hr
      cases hr
  | finish _ _ hdraining =>
    obtain ⟨-, -, hstop⟩ := h.draining _ _ hdraining
    obtain ⟨hstate, hsame, -, -, -, -, r, hr, hstopped, hreason⟩ :=
      s.lifecycle.endShutdown_frame _ _
    refine ⟨fun hn => ?_, fun hnone => ?_, fun reason since hd => ?_, fun r' hr' => ?_⟩
    · rw [hstate] at hn
      cases hn
    · rw [hr] at hnone
      cases hnone
    · cases hd
    · rw [hr] at hr'
      cases hr'
      exact ⟨rfl, hstate, hstopped, by rw [hsame, hstop, hreason]⟩
  | stop =>
    refine ⟨h.new, h.up, fun reason since hd => ?_, fun r hr => ?_⟩
    · obtain ⟨hreport, hstate, hstop⟩ := h.draining reason since hd
      exact ⟨hreport, hstate, reason_giveStop hstop _⟩
    · obtain ⟨hidle, hstate, hstopped, hstop⟩ := h.reported r hr
      exact ⟨hidle, hstate, hstopped, reason_giveStop hstop _⟩
  | goOn =>
    refine ⟨fun hn => ?_, h.up, h.draining, h.reported⟩
    obtain ⟨hserver, hloops, hpending⟩ := h.new hn
    exact ⟨by simp [Lifecycle.goOn, hserver], by simp [Lifecycle.goOn, hloops], hpending⟩

/-- At any time a session is somewhere it can have come to. -/
theorem sound_run (h : s.Sound loops) (schedule : Nat → SessionEvent) (k : Nat) :
    (s.run schedule k).Sound loops := by
  induction k with
  | zero => exact h
  | succ k ih => exact sound_step ih (steps_step _ (schedule k))

/-- No event takes the lifecycle back, or on to where it is already. -/
theorem rank_step (h : s.Sound loops) (hstep : s.Steps e s') :
    s'.lifecycle.state = s.lifecycle.state ∨
      s.lifecycle.state.rank < s'.lifecycle.state.rank := by
  cases hstep with
  | same | wait | stop | goOn => exact .inl rfl
  | @start network now stage =>
    rcases s.lifecycle.start_cases network now with ⟨-, hstart⟩ | ⟨-, fault, hstart⟩ |
      ⟨hs, server, -, hstart⟩
    · exact .inl (by rw [hstart])
    · exact .inl (by rw [hstart])
    · exact .inr (by rw [hstart, hs]; exact Nat.zero_lt_one)
  | see _ _ hwaiting =>
    rcases (h.up_of_waiting hwaiting).2 with hs | hs
    · exact .inr (by rw [hs]; exact Nat.zero_lt_two)
    · exact .inr (by rw [hs]; exact Nat.one_lt_two)
  | finish _ _ hdraining =>
    obtain ⟨-, hs, -⟩ := h.draining _ _ hdraining
    exact .inr (by rw [hs, (s.lifecycle.endShutdown_frame _ _).1]; decide)

/-- From one time to a later one no state is gone back to. -/
theorem rank_run (h : s.Sound loops) (schedule : Nat → SessionEvent) {k j : Nat} (hkj : k ≤ j) :
    (s.run schedule k).lifecycle.state.rank ≤ (s.run schedule j).lifecycle.state.rank := by
  induction j, hkj using Nat.le_induction with
  | base => exact Nat.le_refl _
  | succ j _ ih =>
    rcases rank_step (sound_run h schedule j) (steps_step _ (schedule j)) with hsame | hlt
    · rw [run_succ, hsame]
      exact ih
    · rw [run_succ]
      exact Nat.le_trans ih (Nat.le_of_lt hlt)

/-- The reason of the stop is that of the first one that is given. -/
theorem reason_step (hstep : s.Steps e s') :
    s'.lifecycle.stop.reason = s.lifecycle.stop.reason.or e.reason? := by
  cases hstep with
  | same _ hreason | wait _ hreason | see _ hreason | goOn _ hreason | finish _ hreason =>
    have hsame : s.lifecycle.stop.reason.or e.reason? = s.lifecycle.stop.reason := by
      rw [hreason, Option.or_none]
    exact hsame.symm
  | stop _ hreason =>
    rw [hreason]
    rfl
  | @start network now stage _ _ hreason =>
    rw [hreason, Option.or_none]
    rcases s.lifecycle.start_cases network now with ⟨-, hstart⟩ | ⟨-, fault, hstart⟩ |
      ⟨-, server, -, hstart⟩
    · rw [hstart]
    · rw [hstart]
    · rw [hstart]
      rfl

/-- The reason of the stop is the first that was given with effect. -/
theorem reason_run (s : Session) (schedule : Nat → SessionEvent) (k : Nat) :
    (s.run schedule k).lifecycle.stop.reason = firstReason s.lifecycle.stop schedule k := by
  induction k with
  | zero => exact (Option.or_none ..).symm
  | succ k ih =>
    have hlast : (List.range (k + 1)).findSome? (fun i => (schedule i).reason?) =
        ((List.range k).findSome? fun i => (schedule i).reason?).or (schedule k).reason? := by
      rw [List.range_succ, List.findSome?_append, List.findSome?_singleton]
    rw [run_succ, reason_step (steps_step _ (schedule k)), ih, firstReason, firstReason, hlast,
      Option.or_assoc]

/-- The endpoint is gone once it has been tried. -/
theorem listen_step (hstep : s.Steps e s') :
    s'.lifecycle.listen = if (s.tried e).isSome then none else s.lifecycle.listen := by
  cases hstep with
  | same hstarts | wait hstarts | see hstarts | finish hstarts | stop hstarts | goOn hstarts =>
    have hnone : s.tried e = none := by
      simp only [tried, hstarts, Option.isSome_none, Bool.false_eq_true, false_and, if_false]
    exact (if_neg (by rw [hnone]; nofun)).symm
  | @start network now stage _ hstarts =>
    simp only [tried, hstarts, Option.isSome_some, true_and]
    rcases s.lifecycle.start_cases network now with ⟨hs, hstart⟩ | ⟨hs, fault, hstart⟩ |
      ⟨hs, server, -, hstart⟩
    · rw [hstart, if_neg hs]
      rfl
    · rw [hstart, if_pos hs]
      cases s.lifecycle.listen <;> rfl
    · rw [hstart, if_pos hs]
      cases s.lifecycle.listen <;> rfl

theorem listen_of_tried {endpoint : Endpoint} (h : s.tried e = some endpoint) :
    s.lifecycle.listen.isSome = true := by
  unfold tried at h
  split at h
  · rw [← Option.isSome_map, h, Option.isSome_some]
  · cases h

/-- What is no longer kept to be tried is never tried again. -/
theorem listen_run {schedule : Nat → SessionEvent} {k j : Nat} (hkj : k ≤ j)
    (h : (s.run schedule k).lifecycle.listen = none) :
    (s.run schedule j).lifecycle.listen = none := by
  induction j, hkj using Nat.le_induction with
  | base => exact h
  | succ j _ ih => rw [run_succ, listen_step (steps_step _ (schedule j)), ih, ite_self]

/-- What rules itself out from then on happens once at most. -/
theorem eq_of_not_again {p : Nat → Prop} (h : ∀ i j, i < j → p i → ¬p j) {i j : Nat} (hi : p i)
    (hj : p j) : i = j := by
  rcases Nat.lt_trichotomy i j with hlt | heq | hlt
  · exact absurd hj (h i j hlt hi)
  · exact heq
  · exact absurd hi (h j i hlt hj)

/-- No endpoint is tried after another one. -/
theorem not_tried_again {schedule : Nat → SessionEvent} {i j : Nat} (hij : i < j)
    (hi : ((s.run schedule i).tried (schedule i)).isSome = true) :
    ¬((s.run schedule j).tried (schedule j)).isSome = true := by
  intro hj
  obtain ⟨endpoint, hendpoint⟩ := Option.isSome_iff_exists.mp hj
  have hgone : (s.run schedule (i + 1)).lifecycle.listen = none := by
    rw [run_succ, listen_step (steps_step _ (schedule i)), if_pos hi]
  have hsome := listen_of_tried hendpoint
  rw [listen_run hij hgone] at hsome
  cases hsome

/-- When the tasks are started, none has been started before, and all of them are. -/
theorem launch_step (h : s.Sound loops) (hstep : s.Steps e s') {now : Nat}
    (hlaunched : s.launched e = some now) :
    s.lifecycle.state = .starting ∧ s.lifecycle.loops = [] ∧ s.lifecycle.server = none ∧
      s'.lifecycle.state = .running ∧ s'.lifecycle.pending = [] ∧
      s'.lifecycle.loops = loops.map (·.start now) := by
  cases hstep with
  | same hstarts | wait hstarts | see hstarts | finish hstarts | stop hstarts | goOn hstarts =>
    simp only [launched, hstarts] at hlaunched
    cases hlaunched
  | @start network now' stage _ hstarts =>
    simp only [launched, hstarts] at hlaunched
    split at hlaunched
    · next hand =>
      cases hlaunched
      obtain ⟨hs, hok⟩ := hand
      obtain ⟨hserver, hloops, hpending⟩ := h.new hs
      rcases s.lifecycle.start_cases network now with ⟨hn, -⟩ | ⟨-, fault, hstart⟩ |
        ⟨-, server, -, hstart⟩
      · exact absurd hs hn
      · rw [hstart] at hok
        cases hok
      · refine ⟨hs, hloops, hserver, ?_⟩
        rw [hstart, ← hpending]
        exact ⟨rfl, rfl, rfl⟩
    · cases hlaunched

/-- Tasks are not started after others. -/
theorem not_launched_again (h : s.Sound loops) {schedule : Nat → SessionEvent} {i j : Nat}
    (hij : i < j) (hi : ((s.run schedule i).launched (schedule i)).isSome = true) :
    ¬((s.run schedule j).launched (schedule j)).isSome = true := by
  intro hj
  obtain ⟨now, hnow⟩ := Option.isSome_iff_exists.mp hi
  obtain ⟨later, hlater⟩ := Option.isSome_iff_exists.mp hj
  have hrunning : (s.run schedule (i + 1)).lifecycle.state = .running :=
    (launch_step (sound_run h schedule i) (steps_step _ _) hnow).2.2.2.1
  have hstarting : (s.run schedule j).lifecycle.state = .starting :=
    (launch_step (sound_run h schedule j) (steps_step _ _) hlater).1
  have hrank := rank_run h schedule (Nat.succ_le_of_lt hij)
  rw [hrunning, hstarting] at hrank
  exact absurd hrank (by decide)

/-- Otherwise nothing is started. -/
theorem no_launch_step (hstep : s.Steps e s') (hlaunched : s.launched e = none) :
    s'.lifecycle.pending = s.lifecycle.pending ∧
      s'.lifecycle.loops.length = s.lifecycle.loops.length ∧
      s'.lifecycle.server.isSome = s.lifecycle.server.isSome := by
  cases hstep with
  | same | wait | see | stop => exact ⟨rfl, rfl, rfl⟩
  | goOn => exact ⟨rfl, List.length_mapIdx, Option.isSome_map⟩
  | finish =>
    obtain ⟨-, -, -, hpending, hserver, hloops, -⟩ := s.lifecycle.endShutdown_frame _ _
    exact ⟨hpending, hloops, hserver⟩
  | @start network now stage _ hstarts =>
    rcases s.lifecycle.start_cases network now with ⟨-, hstart⟩ | ⟨-, fault, hstart⟩ |
      ⟨hs, server, -, hstart⟩
    · rw [hstart]
      exact ⟨rfl, rfl, rfl⟩
    · rw [hstart]
      exact ⟨rfl, rfl, rfl⟩
    · simp only [launched, hstarts, hs, hstart, and_self, if_true] at hlaunched
      cases hlaunched

/-- A report stays as it is. -/
theorem report_step (h : s.Sound loops) (hstep : s.Steps e s') {r : RunReport}
    (hr : s.lifecycle.report = some r) : s'.lifecycle.report = some r := by
  obtain ⟨hidle, hstopped, -⟩ := h.reported r hr
  cases hstep with
  | same | wait | stop | goOn => exact hr
  | see _ _ hwaiting =>
    rw [hidle] at hwaiting
    cases hwaiting
  | finish _ _ hdraining =>
    rw [hidle] at hdraining
    cases hdraining
  | start => rwa [Lifecycle.start_of_started (by rw [hstopped]; nofun)]

/-- A report stays as it is. -/
theorem report_run (h : s.Sound loops) {schedule : Nat → SessionEvent} {r : RunReport} {k j : Nat}
    (hkj : k ≤ j) (hr : (s.run schedule k).lifecycle.report = some r) :
    (s.run schedule j).lifecycle.report = some r := by
  induction j, hkj using Nat.le_induction with
  | base => exact hr
  | succ j _ ih => exact report_step (sound_run h schedule j) (steps_step _ (schedule j)) ih

/-- Once there is a report, a start does nothing, and a wait and a run return it at once. -/
theorem Sound.calls_of_reported (h : s.Sound loops) {r : RunReport}
    (hr : s.lifecycle.report = some r) (network : Network) (now : Nat) :
    s.lifecycle.start network now = (s.lifecycle, none) ∧
      s.lifecycle.waitForStop now = some (r, s.lifecycle, now) ∧
      s.lifecycle.startAndWait network now = (s.lifecycle, .ok (some r)) := by
  have hstopped := (h.reported r hr).2.1
  have hstart : s.lifecycle.start network now = (s.lifecycle, none) :=
    Lifecycle.start_of_started (by rw [hstopped]; nofun) network now
  have hwait : s.lifecycle.waitForStop now = some (r, s.lifecycle, now) := by
    simp only [Lifecycle.waitForStop, hr]
  exact ⟨hstart, hwait, by simp only [Lifecycle.startAndWait, hstart, hwait]⟩

theorem sound_built (scenario : String) (stop : StopSignal) (drain : Nat)
    (listen : Option (Endpoint × ServiceTable)) (pending : List RequestLoop)
    (broken : List Method) :
    Sound pending ⟨.built scenario stop drain listen pending broken, .idle⟩ :=
  ⟨fun _ => ⟨rfl, rfl, rfl⟩, fun _ _ => .inl rfl, nofun, nofun⟩

/-- Where a wait gets to at once: there is a report already, or it waits for the stop, or it
drains. -/
theorem wait_cases (l : Lifecycle) (now : Nat) :
    let drains := (step ⟨l, .idle⟩ .wait).step (.see now)
    (∃ r, l.report = some r ∧ drains = ⟨l, .idle⟩) ∨
    (l.report = none ∧ l.stop.reason = none ∧ drains = ⟨l, .waiting⟩) ∨
    ∃ reason, l.report = none ∧ l.stop.reason = some reason ∧
      drains = ⟨l.beginShutdown, .draining reason now⟩ := by
  cases hreport : l.report with
  | some r => exact .inl ⟨r, rfl, by simp [step, await, hreport]⟩
  | none =>
    right
    cases hstop : l.stop.reason with
    | none => exact .inl ⟨rfl, rfl, by simp [step, await, hreport, hstop]⟩
    | some reason => exact .inr ⟨reason, rfl, rfl, by simp [step, await, hreport, hstop]⟩

/-- A wait that is made in one go: it is called, sees the stop and drains. -/
theorem waitForStop_eq (l : Lifecycle) (now : Nat) :
    let drains := (step ⟨l, .idle⟩ .wait).step (.see now)
    (l.waitForStop now).map (fun done => (done.1, done.2.1)) =
        ((returned ⟨l, .idle⟩ .wait).or (drains.returned .finish)).map
          ((·, (drains.step .finish).lifecycle)) ∧
      (l.waitForStop now = none → (drains.step .finish).lifecycle = l) := by
  intro drains
  rcases wait_cases l now with ⟨r, hreport, hdrains⟩ | ⟨hreport, hstop, hdrains⟩ |
    ⟨reason, hreport, hstop, hdrains⟩
  · simp only [drains, hdrains, Lifecycle.waitForStop, hreport, returned, step, Option.some_or,
      Option.map_some, implies_true, and_self]
  · simp only [drains, hdrains, Lifecycle.waitForStop, hreport, hstop, returned, step,
      Option.or_none, Option.map_none, implies_true, and_self]
  · simp only [drains, hdrains, Lifecycle.waitForStop, hreport, hstop, returned, step,
      Option.none_or, Option.map_map]
    exact ⟨rfl, nofun⟩

/-- A run that is made in one go: it starts, and when that has succeeded it waits. -/
theorem startAndWait_eq (l : Lifecycle) (network : Network) (now : Nat) :
    let drains := (step ⟨l, .idle⟩ (.run network now)).step (.see now)
    l.startAndWait network now = ((drains.step .finish).lifecycle,
      match (l.start network now).2 with
      | some fault => .error fault
      | none =>
        .ok ((returned ⟨l, .idle⟩ (.run network now)).or (drains.returned .finish))) := by
  cases hstart : l.start network now with
  | mk l' fault =>
    cases fault with
    | some fault => simp only [Lifecycle.startAndWait, step, hstart]
    | none =>
      have hrun : step ⟨l, .idle⟩ (.run network now) = step ⟨l', .idle⟩ .wait := by
        simp only [step, hstart]
      have hreturned : returned ⟨l, .idle⟩ (.run network now) = returned ⟨l', .idle⟩ .wait := by
        simp only [returned, hstart]
      obtain ⟨hwait, hnone⟩ := waitForStop_eq l' now
      simp only [Lifecycle.startAndWait, hstart, hrun, hreturned]
      cases hdone : l'.waitForStop now with
      | none =>
        rw [hdone, Option.map_none] at hwait
        rw [Option.map_eq_none_iff.mp hwait.symm, hnone hdone]
      | some done =>
        rw [hdone, Option.map_some] at hwait
        obtain ⟨r, hr, hpair⟩ := Option.map_eq_some_iff.mp hwait.symm
        rw [hr]
        simp only [Prod.mk.injEq] at hpair
        rw [hpair.1, hpair.2]

/-- Whatever is called, and whatever happens meanwhile: the states are passed forwards; the endpoint
is tried once at most, and so are the tasks started, all of them together and none but then. A wait
that is done leaves the lifecycle stopped and returns a report with the reason of the first stop.
From then on a start does nothing, and every wait returns this report, on its own or in a run. -/
theorem passes_states_once (scenario : String) (stop : StopSignal) (drain : Nat)
    (listen : Option (Endpoint × ServiceTable)) (pending : List RequestLoop)
    (broken : List Method) (schedule : Nat → SessionEvent) :
    let l := Lifecycle.built scenario stop drain listen pending broken
    let s := (⟨l, .idle⟩ : Session).run schedule
    (∀ k, (s (k + 1)).lifecycle.state = (s k).lifecycle.state ∨
      (s k).lifecycle.state.rank < (s (k + 1)).lifecycle.state.rank) ∧
    (∀ i j, ((s i).tried (schedule i)).isSome = true → ((s j).tried (schedule j)).isSome = true →
      i = j) ∧
    (∀ i j, ((s i).launched (schedule i)).isSome = true →
      ((s j).launched (schedule j)).isSome = true → i = j) ∧
    (∀ k now, (s k).launched (schedule k) = some now →
      (s k).lifecycle.loops = [] ∧ (s k).lifecycle.server = none ∧
      (s (k + 1)).lifecycle.pending = [] ∧
      (s (k + 1)).lifecycle.loops = pending.map (·.start now)) ∧
    (∀ k, (s k).launched (schedule k) = none →
      (s (k + 1)).lifecycle.pending = (s k).lifecycle.pending ∧
      (s (k + 1)).lifecycle.loops.length = (s k).lifecycle.loops.length ∧
      (s (k + 1)).lifecycle.server.isSome = (s k).lifecycle.server.isSome) ∧
    ∀ k r, (s k).returned (schedule k) = some r →
      r.state = .stopped ∧
      ∀ j, k < j →
        firstReason stop schedule j = some r.stopReason ∧
        (s j).lifecycle.state = .stopped ∧
        (∀ r', (s j).returned (schedule j) = some r' → r' = r) ∧
        ∀ network now,
          (s j).lifecycle.start network now = ((s j).lifecycle, none) ∧
          (s j).lifecycle.waitForStop now = some (r, (s j).lifecycle, now) ∧
          (s j).lifecycle.startAndWait network now = ((s j).lifecycle, .ok (some r)) := by
  intro l s
  have hnew : Sound pending ⟨l, .idle⟩ := sound_built scenario stop drain listen pending broken
  have hsound (k : Nat) : (s k).Sound pending := sound_run hnew schedule k
  have hsteps (k : Nat) : (s k).Steps (schedule k) (s (k + 1)) := steps_step _ _
  refine ⟨fun k => rank_step (hsound k) (hsteps k), fun i j hi hj => ?_, fun i j hi hj => ?_,
    fun k now hnow => ?_, fun k hnone => no_launch_step (hsteps k) hnone, fun k r hr => ?_⟩
  · exact eq_of_not_again (fun _ _ => not_tried_again) hi hj
  · exact eq_of_not_again (fun _ _ => not_launched_again hnew) hi hj
  · obtain ⟨-, hloops, hserver, -, hpending, hstarted⟩ := launch_step (hsound k) (hsteps k) hnow
    exact ⟨hloops, hserver, hpending, hstarted⟩
  · have hreport : (s (k + 1)).lifecycle.report = some r := (report_of_returned hr).1
    obtain ⟨-, -, hstate, -⟩ := (hsound (k + 1)).reported r hreport
    refine ⟨hstate, fun j hkj => ?_⟩
    have hkept : (s j).lifecycle.report = some r := report_run hnew hkj hreport
    obtain ⟨-, hstopped, -, hreason⟩ := (hsound j).reported r hkept
    refine ⟨?_, hstopped, fun r' hr' => ?_, (hsound j).calls_of_reported hkept⟩
    · rw [← hreason]
      exact (reason_run ⟨l, .idle⟩ schedule j).symm
    · have hagain : (s (j + 1)).lifecycle.report = some r' := (report_of_returned hr').1
      have hsame : (s (j + 1)).lifecycle.report = some r :=
        report_run hnew (Nat.le_succ_of_le hkj) hreport
      rw [hsame, Option.some.injEq] at hagain
      exact hagain.symm

/-- A run is called, a loop gives the stop, somebody gives it once more, and from the fifth event on
runs are called again. -/
def stoppedTwice : Nat → SessionEvent
  | 0 => .run .isolated 0
  | 1 => .stop (.requestBound .tell)
  | 2 => .stop .external
  | 3 => .see 7
  | 4 => .finish
  | _ => .run .loopback 9

/-- The first of the two reasons is reported, and every later call returns the same report. -/
theorem stoppedTwice_report :
    let l := Lifecycle.built "custom" {} 100 none [] []
    let s := (⟨l, .idle⟩ : Session).run stoppedTwice
    ∃ r, (s 4).returned .finish = some r ∧ r.stopReason = .requestBound .tell ∧
      ∀ j, 5 ≤ j → (s j).lifecycle.state = .stopped ∧
        (s j).lifecycle.startAndWait .loopback 9 = ((s j).lifecycle, .ok (some r)) := by
  intro l s
  obtain ⟨-, -, -, -, -, hreports⟩ :=
    passes_states_once "custom" {} 100 none [] [] stoppedTwice
  obtain ⟨r, hr⟩ : ∃ r, (s 4).returned .finish = some r := ⟨_, rfl⟩
  obtain ⟨-, hlater⟩ := hreports 4 r hr
  have hreason : firstReason {} stoppedTwice 5 = some (.requestBound .tell) := by decide
  refine ⟨r, hr, ?_, fun j hj => ?_⟩
  · have h := (hlater 5 (by decide)).1
    rw [hreason, Option.some.injEq] at h
    exact h.symm
  · obtain ⟨-, hstopped, -, hcalls⟩ := hlater j hj
    exact ⟨hstopped, (hcalls .loopback 9).2.2⟩

end Session
end ScriptedPeer
