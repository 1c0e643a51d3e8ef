import ScriptedPeer.Proofs.Lifecycle.Starting
import ScriptedPeer.Proofs.Program.Building
import ScriptedPeer.Proofs.Rehearsal.Onward
import ScriptedPeer.Rehearsal.Program

/-!
# How the program begins

Before anything of what was built is started, the signals are listened for. Then the lifecycle
listens at its endpoint, and if that fails nothing has been started. Once it has begun, the program
comes to a report exactly when the stop is given while its end is waited for.
-/

namespace ScriptedPeer

namespace Lifecycle

variable {l : Lifecycle} {network : Network} {now : Nat} {fault : RunFault}

/-- A start fails when nobody can listen at the endpoint. -/
theorem start_eq_some_iff (h : l.IsUnstarted) : (l.start network now).2 = some fault ↔
    ∃ endpoint table, l.listen = some (endpoint, table) ∧
      network.listen endpoint = .error fault := by
  cases hl : l.listen with
  | none =>
    rw [start_of_no_listen h.state hl]
    simp
  | some place =>
    obtain ⟨endpoint, table⟩ := place
    cases hb : network.listen endpoint <;> simp [start, h.state, hl, hb]

/-- A start that fails leaves everything as it was but the endpoint. -/
theorem start_of_fault (h : l.IsUnstarted) (hf : (l.start network now).2 = some fault) :
    (l.start network now).1 = { l with listen := none } := by
  obtain ⟨endpoint, table, hl, hb⟩ := (start_eq_some_iff h).mp hf
  simp only [start, h.state, hl, hb]

/-- A start that succeeds brings a server just if there was an endpoint to listen at. -/
theorem start_of_no_fault (h : l.IsUnstarted) (hf : (l.start network now).2 = none) :
    ∃ server : Option Server, server.isSome = l.listen.isSome ∧
      (l.start network now).1 = { l with listen := none, server }.launch now := by
  cases hl : l.listen with
  | none =>
    refine ⟨none, rfl, ?_⟩
    rw [start_of_no_listen h.state hl, ← h.server, ← hl]
  | some place =>
    obtain ⟨endpoint, table⟩ := place
    cases hb : network.listen endpoint with
    | error why => simp [start, h.state, hl, hb] at hf
    | ok port =>
      refine ⟨some { endpoint := endpoint.withPort port, table, broken := l.broken }, rfl, ?_⟩
      simp only [start, h.state, hl, hb]

end Lifecycle

namespace Rehearsal

variable {l : Lifecycle} {network : Network} {peer : Peer}

theorem isUnstarted_new (h : l.IsUnstarted) (network : Network) (peer : Peer) (canFire : Bool) :
    (new l network peer canFire).lifecycle.IsUnstarted :=
  ⟨h.state, h.server, h.loops, h.report, h.awaitsServer, h.awaitsLoops⟩

/-- The timers of a rehearsal have nothing to do with whether it can be started. -/
theorem fault_start (h : l.IsUnstarted) :
    (new l network peer false).start.2 = (l.start network 0).2 :=
  Option.ext fun _ =>
    (Lifecycle.start_eq_some_iff (isUnstarted_new h network peer false)).trans
      (Lifecycle.start_eq_some_iff h).symm

/-- A rehearsal that has been started runs what was built, and reports on it. -/
theorem isRunning_start (h : l.IsUnstarted) (hf : (l.start network 0).2 = none) (peer : Peer) :
    let started := (new l network peer false).start.1
    started.lifecycle.IsRunning ∧ (l.stop.isTriggered = true → started.stopped = true) ∧
      ∀ report, started.lifecycle.ReportedBy report → l.ReportedBy report := by
  intro started
  have hnew := isUnstarted_new h network peer false
  have hstarts : ((new l network peer false).lifecycle.start network 0).2 = none :=
    (fault_start h).trans hf
  obtain ⟨server, hserver, hstart⟩ := Lifecycle.start_of_no_fault hnew hstarts
  have hgoes : ((new l network peer false).lifecycle.start network 0).1.GoesOn started.lifecycle :=
    goesOn_settle (new l network peer false).launch.1
  rw [hstart] at hgoes
  have hruns : ({ (new l network peer false).lifecycle with
      listen := none, server }.launch 0).IsRunning :=
    ⟨rfl, rfl, h.report, h.awaitsServer, h.awaitsLoops⟩
  refine ⟨hruns.goesOn hgoes, hgoes.isTriggered, fun report hreport => ?_⟩
  have hlaunch := hreport.of_goesOn hgoes
  refine ⟨hlaunch.scenario, hlaunch.state, hlaunch.stopReason, hlaunch.methods.trans ?_, ?_⟩
  · simp only [Lifecycle.launch, new, h.loops, List.nil_append, List.append_nil, List.map_map]
    rfl
  · rw [hlaunch.server, h.server]
    exact Bool.or_comm _ _ |>.trans (congrArg (· || false) hserver)

end Rehearsal

namespace Program

variable {w : World} {lifecycle : Lifecycle} {fault : ProgramFault}
  {faultOf : SystemSignal → Option String}

/-- The signals are listened for one after the other, and the first fault is reported. -/
theorem watch_eq_error_iff : watch faultOf = .error fault ↔
    (∃ why, faultOf .terminate = some why ∧ fault = .unregistered .terminate why) ∨
    faultOf .terminate = none ∧
      ∃ why, faultOf .interrupt = some why ∧ fault = .unregistered .interrupt why := by
  cases ht : faultOf .terminate <;> cases hi : faultOf .interrupt <;>
    simp [watch, ht, hi, bind, Except.bind, pure, Except.pure, eq_comm]

theorem watch_eq_ok_iff : watch faultOf = .ok () ↔ ∀ s, faultOf s = none := by
  have hall : (∀ s, faultOf s = none) ↔ faultOf .terminate = none ∧ faultOf .interrupt = none :=
    ⟨fun h => ⟨h _, h _⟩, fun h s => match s with
      | .terminate => h.1
      | .interrupt => h.2⟩
  rw [hall]
  cases ht : faultOf .terminate <;> cases hi : faultOf .interrupt <;>
    simp [watch, ht, hi, bind, Except.bind, pure, Except.pure]

/-- Why a lifecycle that was built cannot be started: a signal cannot be listened for, or the
endpoint cannot be bound, or the network fails when it is asked for the port. -/
inductive Fails (w : World) (lifecycle : Lifecycle) : ProgramFault → Prop
  | terminate {why : String} (h : w.signalFault .terminate = some why) :
    Fails w lifecycle (.unregistered .terminate why)
  | interrupt {why : String} (hfree : w.signalFault .terminate = none)
      (h : w.signalFault .interrupt = some why) :
    Fails w lifecycle (.unregistered .interrupt why)
  | bind {endpoint : Endpoint} {table : ServiceTable} {why : String}
      (hfree : ∀ s, w.signalFault s = none) (hl : lifecycle.listen = some (endpoint, table))
      (h : w.network.bind endpoint = .error why) :
    Fails w lifecycle (.run (.bind endpoint.text why))
  | port {endpoint : Endpoint} {table : ServiceTable} {port : UInt16} {why : String}
      (hfree : ∀ s, w.signalFault s = none) (hl : lifecycle.listen = some (endpoint, table))
      (hb : w.network.bind endpoint = .ok port) (h : w.network.portFault endpoint = some why) :
    Fails w lifecycle (.run (.call (.network why)))

theorem Fails.isConfiguration (h : Fails w lifecycle fault) : fault.isConfiguration = false := by
  cases h <;> rfl

theorem start_of_unregistered (hw : watch w.signalFault = .error fault) :
    start w lifecycle = .error fault := by
  simp only [start, hw, bind, Except.bind]

theorem start_of_watch (hs : lifecycle.IsUnstarted) (hw : watch w.signalFault = .ok ()) :
    start w lifecycle = match (lifecycle.start w.network 0).2 with
      | some why => .error (.run why)
      | none => .ok (w.signal (Rehearsal.new lifecycle w.network w.peer false).start.1) := by
  have hfault : (Rehearsal.new lifecycle w.network w.peer false).start.2 =
      (lifecycle.start w.network 0).2 := Rehearsal.fault_start hs
  rw [← hfault]
  simp only [start, hw, bind, Except.bind]
  cases (Rehearsal.new lifecycle w.network w.peer false).start with
  | mk r fault => cases fault <;> rfl

/-- Without a signal being listened for, that is why the lifecycle cannot be started. -/
theorem fails_iff_of_unregistered {unregistered : ProgramFault}
    (hw : watch w.signalFault = .error unregistered) :
    Fails w lifecycle fault ↔ unregistered = fault := by
  constructor
  · intro hf
    have heq : watch w.signalFault = .error fault := by
      cases hf with
      | terminate h => exact watch_eq_error_iff.mpr (.inl ⟨_, h, rfl⟩)
      | interrupt hfree h => exact watch_eq_error_iff.mpr (.inr ⟨hfree, _, h, rfl⟩)
      | bind hfree | port hfree =>
        rw [watch_eq_ok_iff.mpr hfree] at hw
        cases hw
    rw [hw] at heq
    exact Except.error.inj heq
  · rintro rfl
    rcases watch_eq_error_iff.mp hw with ⟨why, h, rfl⟩ | ⟨hfree, why, h, rfl⟩
    · exact .terminate h
    · exact .interrupt hfree h

/-- With all signals listened for, it is left to the network. -/
theorem fails_iff_of_watched (hw : watch w.signalFault = .ok ()) :
    Fails w lifecycle fault ↔ ∃ why, (∃ endpoint table, lifecycle.listen = some (endpoint, table) ∧
      w.network.listen endpoint = .error why) ∧ fault = .run why := by
  have hfree := watch_eq_ok_iff.mp hw
  constructor
  · intro hf
    cases hf with
    | terminate h | interrupt _ h =>
      rw [hfree] at h
      cases h
    | bind _ hl h => exact ⟨_, ⟨_, _, hl, Network.listen_eq_error_iff.mpr (.inl ⟨_, h, rfl⟩)⟩, rfl⟩
    | port _ hl hb h =>
      exact ⟨_, ⟨_, _, hl, Network.listen_eq_error_iff.mpr (.inr ⟨_, _, hb, h, rfl⟩)⟩, rfl⟩
  · rintro ⟨why, ⟨endpoint, table, hl, hlisten⟩, rfl⟩
    rcases Network.listen_eq_error_iff.mp hlisten with ⟨_, hb, rfl⟩ | ⟨_, _, hb, htold, rfl⟩
    · exact .bind hfree hl hb
    · exact .port hfree hl hb htold

/-- The faults of a start are those of the signals, and then those of the network. -/
theorem start_eq_error_iff (hs : lifecycle.IsUnstarted) :
    start w lifecycle = .error fault ↔ Fails w lifecycle fault := by
  cases hw : watch w.signalFault with
  | error unregistered =>
    rw [start_of_unregistered hw, fails_iff_of_unregistered hw, Except.error.injEq]
  | ok _ =>
    have hnetwork (why : RunFault) : (lifecycle.start w.network 0).2 = some why ↔
        ∃ endpoint table, lifecycle.listen = some (endpoint, table) ∧
          w.network.listen endpoint = .error why := Lifecycle.start_eq_some_iff hs
    simp only [fails_iff_of_watched hw, ← hnetwork, start_of_watch hs hw]
    cases (lifecycle.start w.network 0).2 <;> simp [eq_comm]

theorem goesOn_signal (w : World) (r : Rehearsal) :
    r.lifecycle.GoesOn (w.signal r).lifecycle := by
  unfold World.signal
  split
  · exact (Rehearsal.goesOn_trigger r _).trans (Rehearsal.goesOn_settle _)
  · exact .refl _

theorem stopped_signal (h : w.signalled = true) (r : Rehearsal) : (w.signal r).stopped = true := by
  rw [World.signal, if_pos h]
  exact (Rehearsal.goesOn_settle _).isTriggered (StopSignal.isTriggered_trigger _ _)

/-- A program that has begun comes to a report exactly when the stop is given by the time its end is
waited for no longer, and always if it is given before or as soon as it runs. -/
theorem wait_of_start {r : Rehearsal} (hs : lifecycle.IsUnstarted)
    (h : start w lifecycle = .ok r) (limit : Nat) :
    ((r.wait limit).2 = none ↔ (r.wait limit).1.stopped = false) ∧
    (lifecycle.stop.isTriggered = true ∨ w.signalled = true → (r.wait limit).2 ≠ none) ∧
    ∀ report, (r.wait limit).2 = some report → lifecycle.ReportedBy report := by
  cases hw : watch w.signalFault with
  | error unregistered =>
    rw [start_of_unregistered hw] at h
    cases h
  | ok _ =>
    rw [start_of_watch hs hw] at h
    cases hf : (lifecycle.start w.network 0).2 with
    | some why =>
      rw [hf] at h
      cases h
    | none =>
      rw [hf] at h
      cases h
      obtain ⟨hruns, hstop, hreport⟩ := Rehearsal.isRunning_start hs hf w.peer
      have hgoes := goesOn_signal w (Rehearsal.new lifecycle w.network w.peer false).start.1
      obtain ⟨hnone, hsome, hmade⟩ := Rehearsal.wait_spec (hruns.goesOn hgoes) limit
      refine ⟨hnone, fun hgiven => hsome ?_, fun report hr => ?_⟩
      · rcases hgiven with hgiven | hgiven
        · exact hgoes.isTriggered (hstop hgiven)
        · exact stopped_signal hgiven _
      · exact hreport report ((hmade report hr).of_goesOn hgoes)

end Program
end ScriptedPeer
