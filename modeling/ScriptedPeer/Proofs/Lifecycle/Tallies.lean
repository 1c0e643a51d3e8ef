import ScriptedPeer.Proofs.Lifecycle.Draining
import ScriptedPeer.Proofs.Lifecycle.Starting
import ScriptedPeer.Proofs.RequestLoop.BoundedRun
import ScriptedPeer.Proofs.RequestLoop.Endings

/-!
# Tallies that add up

At every moment a loop has made as many attempts as it has counted outcomes, and one more while a
call is on its way. A report keeps this: a loop that has ended has an outcome for each attempt, and
one that is given up at the end of a drain lacks that of its last call. The latter needs a drain of
some length. Without any time to wait, a loop that has not seen the stop yet is given up as well,
and no call of it is on its way.
-/

namespace ScriptedPeer

namespace LoopWorld

/-- A loop at some moment of some run. -/
def IsReached (w : LoopWorld) : Prop :=
  ∃ m c p start stop triggers script schedule k,
    w = (started m c p start stop triggers).run script schedule k

theorem run_congr (w : LoopWorld) (script : CallScript) {schedule schedule' : Nat → Happening}
    {k : Nat} (h : ∀ i < k, schedule i = schedule' i) :
    w.run script schedule k = w.run script schedule' k := by
  induction k with
  | zero => rfl
  | succ k ih =>
    rw [run_succ, run_succ, ih fun i hi => h i (Nat.lt_succ_of_lt hi), h k (Nat.lt_succ_self k)]

/-- One run after the other is a run. -/
theorem run_run (w : LoopWorld) (script : CallScript) (schedule later : Nat → Happening)
    (k j : Nat) : (w.run script schedule k).run script later j =
      w.run script (fun i => if i < k then schedule i else later (i - k)) (k + j) := by
  induction j with
  | zero => exact run_congr w script fun i hi => (if_pos hi).symm
  | succ j ih =>
    rw [run_succ, ih, ← Nat.add_assoc, run_succ, if_neg (by omega), Nat.add_sub_cancel_left]

/-- After the stop a loop comes to what a drain expects of it, if it comes to an end at all. -/
theorem IsReached.exists_drained {w : LoopWorld} (h : w.IsReached)
    (hs : w.stop.isTriggered = true) (hn : Lifecycle.loopFate w.now w.loop ≠ .lasts) :
    ∃ w', IsReached w' ∧ w'.loop = Lifecycle.drained w.loop := by
  obtain ⟨m, c, p, start, stop, triggers, script, schedule, k, rfl⟩ := h
  have hgoes := goesBy_loopCourse hs script BoundedSetup.everySecond
  obtain ⟨j, hj⟩ := hgoes.ends BoundedSetup.fair_everySecond hn
  exact ⟨_, ⟨m, c, p, start, stop, triggers, script, _, k + j, run_run _ _ _ _ _ _⟩,
    hgoes.ended j hj⟩

theorem IsReached.balance {w : LoopWorld} (h : w.IsReached) (hp : w.loop.phase ≠ .crashed) :
    w.loop.tally.attempts =
      w.loop.tally.successes + w.loop.tally.failures + w.loop.inFlight := by
  obtain ⟨m, c, p, start, stop, triggers, script, schedule, k, rfl⟩ := h
  have haccount := accounted_run (accounted_started m c p start stop triggers) script schedule k
  rw [haccount.attempts]
  exact haccount.exact hp

theorem IsReached.phase_ne_aborted {w : LoopWorld} (h : w.IsReached) :
    w.loop.phase ≠ .aborted := by
  obtain ⟨m, c, p, start, stop, triggers, script, schedule, k, rfl⟩ := h
  exact (suited_run (suited_started m c p start stop triggers script)
    (accounted_started m c p start stop triggers) schedule k).notAborted

theorem IsReached.ending {w : LoopWorld} (h : w.IsReached) {why : LoopEnd}
    (hp : w.loop.phase = .ended why) :
    w.loop.tally.attempts = w.loop.tally.successes + w.loop.tally.failures ∧
      why.suits w.loop.cadence = true ∧
      (why = .singleShotDone → w.loop.tally.attempts = 1) := by
  have hbalance := h.balance (by simp [hp])
  rw [RequestLoop.inFlight_of_not_calling (by simp [RequestLoop.isCalling, hp])] at hbalance
  refine ⟨hbalance, ?_⟩
  obtain ⟨m, c, p, start, stop, triggers, script, schedule, k, rfl⟩ := h
  have haccount := accounted_started m c p start stop triggers
  have hsuited := suited_run (suited_started m c p start stop triggers script) haccount schedule k
  rw [LoopEnd.suits_of_continues hsuited.continues,
    (accounted_run haccount script schedule k).attempts]
  exact hsuited.ended why hp

end LoopWorld

namespace Lifecycle

theorem endedBy_eq_some {r : RequestLoop} {why : LoopEnd} :
    r.report.endedBy = some why ↔ r.phase = .ended why := by
  cases hp : r.phase <;> simp [RequestLoop.report, hp]

/-- Given some time to wait, a shutdown gives up a loop only during a call. -/
theorem isCalling_of_late {r : RequestLoop} {now drain : Nat} (hd : 0 < drain)
    (h : (loopFate now r).endsBefore (now + drain) = false) : r.isCalling = true := by
  cases hp : r.phase with
  | waiting => simp [loopFate, hp, Fate.endsBefore, hd] at h
  | ended _ | crashed | aborted => simp [loopFate, hp, Fate.endsBefore] at h
  | calling _ => simp only [RequestLoop.isCalling, hp]

/-- A shutdown reports the loops that it awaits as they are at the deadline. -/
theorem shutdown_loops (l : Lifecycle) (reason : StopReason) (now : Nat) :
    let done := (l.shutdown reason now).1
    done.awaitedLoops = l.awaitedLoops.map
      (fun r => atDeadline (now + l.drain) RequestLoop.abort (loopCourse now r)) ∧
    ∃ report, done.report = some report ∧
      report.loops = done.awaitedLoops.map RequestLoop.report := by
  intro done
  have hdone : done = _ := congrArg Prod.fst (drainTasks_eq l.beginShutdown reason now
    (l.beginShutdown.awaitedServer.map (serverCourse now))
    (l.beginShutdown.awaitedLoops.map (loopCourse now)))
  have hloops : done.awaitedLoops = l.awaitedLoops.map
      (fun r => atDeadline (now + l.drain) RequestLoop.abort (loopCourse now r)) := by
    rw [hdone]
    cases hl : l.awaitsLoops with
    | true =>
      simp only [awaitedLoops, beginShutdown, hl, if_true, List.map_map, Function.comp_def]
    | false =>
      simp only [awaitedLoops, beginShutdown, hl, Bool.false_eq_true, if_false, List.map_nil]
  refine ⟨hloops, _, congrArg report hdone, ?_⟩
  simp only [hloops, List.map_map]
  rfl

theorem mem_of_awaited {l : Lifecycle} {r : RequestLoop} (h : r ∈ l.awaitedLoops) :
    r ∈ l.loops := by
  unfold awaitedLoops at h
  split at h
  · exact h
  · cases h

/-- What a loop is at the deadline: it has come to its end, as it does in a run, or it was given up,
and then during a call if there was any time to wait. -/
theorem tally_atDeadline {w : LoopWorld} (h : w.IsReached) (hs : w.stop.isTriggered = true)
    (drain : Nat) :
    let r := atDeadline (w.now + drain) RequestLoop.abort (loopCourse w.now w.loop)
    (r.phase ≠ .aborted → ∃ w' : LoopWorld, w'.IsReached ∧ w'.loop = r) ∧
    (∀ why, r.report.endedBy = some why →
      r.tally.attempts = r.tally.successes + r.tally.failures ∧
      why.suits r.cadence = true ∧ (why = .singleShotDone → r.tally.attempts = 1)) ∧
    (r.phase = .aborted → r.report.endedBy = none ∧
      (0 < drain → r.tally.attempts = r.tally.successes + r.tally.failures + 1)) := by
  cases hin : (loopFate w.now w.loop).endsBefore (w.now + drain) with
  | true =>
    have hn : loopFate w.now w.loop ≠ .lasts := by
      intro hlasts
      rw [hlasts] at hin
      cases hin
    obtain ⟨w', hreached', hw'⟩ := h.exists_drained hs hn
    rw [atDeadline_of_endsBefore hin, loopCourse, ← hw']
    exact ⟨fun _ => ⟨w', hreached', rfl⟩,
      fun why hwhy => hreached'.ending (endedBy_eq_some.mp hwhy),
      fun hp => absurd hp hreached'.phase_ne_aborted⟩
  | false =>
    have habort : atDeadline (w.now + drain) RequestLoop.abort (loopCourse w.now w.loop) =
        w.loop.abort := by
      rw [atDeadline, loopCourse, hin]
      rfl
    rw [habort]
    refine ⟨fun hp => absurd rfl hp, fun why hwhy => ?_, fun _ => ⟨rfl, fun hd => ?_⟩⟩
    · cases hwhy
    have hc := isCalling_of_late hd hin
    have hbalance := h.balance fun hp => by simp [RequestLoop.isCalling, hp] at hc
    rwa [RequestLoop.inFlight_of_calling hc] at hbalance

/-- At every moment of a run the attempts of a loop that has not crashed are its outcomes, and one
more while a call is on its way; nothing is ever taken back; only a cadence or a call that breaks
the loop makes it crash. The reason for its end goes with its cadence: a single call makes one
attempt, and a loop that ends because the triggers are closed has answered them all. In a report a
loop that has ended has an outcome for each attempt, and one that was given up lacks exactly one, if
there was any time to wait. -/
theorem tallies_balance :
    (∀ (m : Method) (c : Cadence) (p : Profile) (start : Nat) (stop : StopSignal)
      (triggers : Triggers) (script : CallScript) (schedule : Nat → Happening),
      let w := (LoopWorld.started m c p start stop triggers).run script schedule
      ∀ k,
        let l := (w k).loop
        (l.phase ≠ .crashed → l.tally.attempts =
          l.tally.successes + l.tally.failures + if l.isCalling then 1 else 0) ∧
        (l.phase = .crashed →
          c.isUnfit = true ∨ ∃ i < l.tally.attempts, script.reaction i = .crashes) ∧
        (∀ j, k ≤ j → l.tally.Grows (w j).loop.tally) ∧
        ∀ why, l.phase = .ended why →
          why.suits c = true ∧
          (why = .singleShotDone → l.tally.attempts = 1) ∧
          (why = .triggerClosed →
            (c = .onTrigger .closed → l.tally.attempts = 0) ∧
            (c = .onTrigger .shared → triggers.openAt schedule k = false ∧
              l.tally.attempts = triggers.raised schedule k))) ∧
    ∀ (l : Lifecycle) (reason : StopReason) (now : Nat),
      (∀ r ∈ l.loops, ∃ w : LoopWorld,
        w.IsReached ∧ w.loop = r ∧ w.now = now ∧ w.stop.isTriggered = true) →
      let done := (l.shutdown reason now).1
      ∃ report, done.report = some report ∧
        report.loops = done.awaitedLoops.map RequestLoop.report ∧
        ∀ r ∈ done.awaitedLoops,
          (r.phase ≠ .aborted → ∃ w : LoopWorld, w.IsReached ∧ w.loop = r) ∧
          (∀ why, r.report.endedBy = some why →
            r.tally.attempts = r.tally.successes + r.tally.failures ∧
            why.suits r.cadence = true ∧ (why = .singleShotDone → r.tally.attempts = 1)) ∧
          (r.phase = .aborted → r.report.endedBy = none ∧
            (0 < l.drain →
              r.tally.attempts = r.tally.successes + r.tally.failures + 1)) := by
  refine ⟨?_, ?_⟩
  · intro m c p start stop triggers script schedule w k l
    have hreached : (w k).IsReached := ⟨m, c, p, start, stop, triggers, script, schedule, k, rfl⟩
    have hstart := LoopWorld.accounted_started m c p start stop triggers
    have haccount : (w k).Accounted := LoopWorld.accounted_run hstart script schedule k
    have hsuited := LoopWorld.suited_started m c p start stop triggers script
    have hnow : (w k).Suited c script := LoopWorld.suited_run hsuited hstart schedule k
    have hfed : (w k).Fed c triggers schedule k := LoopWorld.fed_run
      (LoopWorld.fed_started m c p start stop triggers schedule) hsuited hstart k
    have hattempts : l.tally.attempts = (w k).sent.length := haccount.attempts
    refine ⟨hreached.balance, ?_, fun j hkj => LoopWorld.grows_run _ script schedule hkj, ?_⟩
    · rw [hattempts]
      exact hnow.crashed
    · intro why hp
      obtain ⟨hsuits, hsingle⟩ := hnow.ended why hp
      rw [hattempts]
      refine ⟨hsuits, hsingle, fun hwhy => ⟨hfed.closed, fun hc => ?_⟩⟩
      rw [hwhy] at hp
      obtain ⟨hclosed, hnone⟩ := hfed.ended hc hp
      rw [← hfed.isOpen, ← hfed.shared hc, hnone]
      exact ⟨hclosed, rfl⟩
  · intro l reason now hloops done
    obtain ⟨hdone, report, hreport, hentries⟩ := l.shutdown_loops reason now
    refine ⟨report, hreport, hentries, fun r hr => ?_⟩
    have hr' : r ∈ l.awaitedLoops.map _ := hdone ▸ hr
    obtain ⟨r₀, hr₀, rfl⟩ := List.mem_map.mp hr'
    obtain ⟨w, hreached, rfl, rfl, hs⟩ := hloops r₀ (mem_of_awaited hr₀)
    exact tally_atDeadline hreached hs l.drain

/-- Two triggers, and then no more. -/
def twoTriggers : Nat → Happening
  | 0 | 1 => .trigger
  | 2 => .closeTriggers
  | _ => .turn

/-- A Tell for each of two triggers. -/
def triggeredTells : Nat → LoopWorld :=
  (LoopWorld.started .tell (.onTrigger .shared) someProfile 0 {} {}).run
    ⟨fun _ => .atOnce true, fun _ _ => ⟨0⟩⟩ twoTriggers

/-- A heartbeat that is never answered and a Tell that is, both sent before the stop. -/
def unansweredHeartbeat : LoopWorld :=
  (LoopWorld.started .heartbeat (.periodic { interval := 10 }) someProfile 0 {} {}).run
    ⟨fun _ => .hangs, fun _ _ => ⟨0⟩⟩ LoopWorld.stoppedWhileCalling 3

def answeredTell : LoopWorld :=
  (LoopWorld.started .tell .single someProfile 0 {} {}).run
    LoopWorld.slowCalls LoopWorld.stoppedWhileCalling 3

def halfAnswered : Lifecycle where
  scenario := "custom"
  stop := ⟨some .external⟩
  drain := 100
  state := .running
  loops := [unansweredHeartbeat.loop, answeredTell.loop]

theorem halfAnswered_balance :
    (triggeredTells 8).loop.phase = .ended .triggerClosed ∧
    (triggeredTells 8).loop.tally.attempts = 2 ∧
    ∃ report, (halfAnswered.shutdown .external 5).1.report = some report ∧
      ∃ heartbeat tell, report.loops = [heartbeat, tell] ∧
        heartbeat.endedBy = none ∧
        heartbeat.tally.attempts = heartbeat.tally.successes + heartbeat.tally.failures + 1 ∧
        tell.endedBy = some .singleShotDone ∧
        tell.tally.attempts = tell.tally.successes + tell.tally.failures := by
  obtain ⟨hruns, hreports⟩ := tallies_balance
  have hended : (triggeredTells 8).loop.phase = .ended .triggerClosed := by decide
  have hraised := ((hruns .tell (.onTrigger .shared) someProfile 0 {} {}
    ⟨fun _ => .atOnce true, fun _ _ => ⟨0⟩⟩ twoTriggers 8).2.2.2 _ hended).2.2 rfl
  refine ⟨hended, (hraised.2 rfl).2, ?_⟩
  have hreached : ∀ r ∈ halfAnswered.loops, ∃ w : LoopWorld,
      w.IsReached ∧ w.loop = r ∧ w.now = 5 ∧ w.stop.isTriggered = true := by
    intro r hr
    rcases List.mem_pair.mp hr with rfl | rfl
    · exact ⟨_, ⟨.heartbeat, _, _, _, _, _, _, _, _, rfl⟩, rfl, by decide, by decide⟩
    · exact ⟨_, ⟨.tell, _, _, _, _, _, _, _, _, rfl⟩, rfl, by decide, by decide⟩
  obtain ⟨report, hreport, hloops, hentries⟩ :=
    hreports halfAnswered .external 5 hreached
  obtain ⟨heartbeat, tell, hdone, haborted, hdrained⟩ : ∃ heartbeat tell,
      (halfAnswered.shutdown .external 5).1.awaitedLoops = [heartbeat, tell] ∧
      heartbeat.phase = .aborted ∧ tell.report.endedBy = some .singleShotDone :=
    ⟨_, _, rfl, by decide, by decide⟩
  rw [hdone] at hloops hentries
  obtain ⟨hnone, hlacks⟩ := (hentries heartbeat List.mem_cons_self).2.2 haborted
  obtain ⟨hall, -⟩ := (hentries tell (by simp)).2.1 _ hdrained
  exact ⟨report, hreport, heartbeat.report, tell.report, hloops, hnone, hlacks (by decide),
    hdrained, hall⟩

/-- A Tell every millisecond, stopped before it is started and without any time to wait. -/
def undrained : Lifecycle where
  scenario := "custom"
  stop := ⟨some .external⟩
  drain := 0
  pending := [{
    method := .tell
    cadence := .periodic { interval := 1 }
    profile := someProfile }]

/-- The loop is given up at the end of the drain, and no call of it is unresolved: it has made
none. -/
theorem undrained_report :
    let waited := undrained.startAndWait .isolated 0
    waited.2 = .ok (some ⟨"custom", .stopped, .external, [⟨.tell, {}, none⟩], none, true⟩) ∧
    waited.1.loops.map RequestLoop.phase = [.aborted] ∧
    ∀ r ∈ waited.1.loops, r.tally.attempts ≠ r.tally.successes + r.tally.failures + 1 := by
  decide

end Lifecycle
end ScriptedPeer
