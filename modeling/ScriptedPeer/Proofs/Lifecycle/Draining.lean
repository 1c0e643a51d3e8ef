import ScriptedPeer.Proofs.Lifecycle.Courses

/-!
# What a shutdown waits for

A shutdown awaits the server and then the loops, one after the other, but all of them against one
deadline. So what becomes of a task depends on its own time only: one that has ended by the deadline
is let finish, however long those before it took, and one that has not is given up. The tasks of a
lifecycle go on after the stop as the shutdown expects them to.
-/

namespace ScriptedPeer

def Fate.end? : Fate → Option Nat
  | ends time => some time
  | ended | lasts => none

namespace Drain

/-- When the last of the tasks ends, and not before `now`. -/
def lastEnd (now : Nat) (fates : List Fate) : Nat := (fates.filterMap Fate.end?).foldl max now

theorem lastEnd_cons (now : Nat) (f : Fate) (fates : List Fate) :
    lastEnd now (f :: fates) = lastEnd (lastEnd now [f]) fates := by
  cases f <;> rfl

/-- Tasks that end before a time are of no account for what ends later. -/
theorem lastEnd_of_endsBefore {now : Nat} {fates : List Fate}
    (h : fates.all (·.endsBefore now) = true) : lastEnd now fates = now := by
  induction fates with
  | nil => rfl
  | cons f fates ih =>
    rw [List.all_cons, Bool.and_eq_true] at h
    have hf : lastEnd now [f] = now := by
      cases f with
      | ended | lasts => rfl
      | ends time => exact Nat.max_eq_left (Nat.le_of_lt (by simpa [Fate.endsBefore] using h.1))
    rw [lastEnd_cons, hf, ih h.2]

theorem await_eq {deadline now : Nat} (h : now ≤ deadline) (f : Fate) : await deadline now f =
    (if f.endsBefore deadline then lastEnd now [f] else deadline, !f.endsBefore deadline) := by
  cases f with
  | ended => rfl
  | lasts => simp [await, Fate.endsBefore, h]
  | ends time =>
    by_cases ht : time < deadline
    · simp [await, Fate.endsBefore, ht, lastEnd, Fate.end?]
    · simp [await, Fate.endsBefore, ht, h]

/-- Only the time that awaiting takes depends on the tasks together. -/
theorem awaitAll_eq {deadline now : Nat} (h : now ≤ deadline) (fates : List Fate) :
    awaitAll deadline now fates =
      (if fates.all (·.endsBefore deadline) then lastEnd now fates else deadline,
        fates.map (!·.endsBefore deadline)) := by
  induction fates generalizing now with
  | nil => rfl
  | cons f fates ih =>
    rw [awaitAll, await_eq h]
    by_cases hf : f.endsBefore deadline = true
    · have hnow : lastEnd now [f] ≤ deadline := by
        cases f with
        | ended | lasts => exact h
        | ends time =>
          have ht : time < deadline := of_decide_eq_true hf
          exact Nat.max_le.mpr ⟨h, by omega⟩
      simp only [hf, if_true, ih hnow, List.all_cons, Bool.true_and, List.map_cons,
        lastEnd_cons now f fates]
    · -- Given up at the deadline. The rest costs no more time: it has ended, or is given up.
      simp only [hf, Bool.false_eq_true, if_false, ih (Nat.le_refl deadline), List.all_cons,
        Bool.false_and, List.map_cons, Prod.mk.injEq, and_true]
      split
      · next hall => exact lastEnd_of_endsBefore hall
      · rfl

end Drain

namespace Lifecycle

variable {l : Lifecycle} {server : Option (Course Server)} {loops : List (Course RequestLoop)}

/-- What the tasks come to that go these courses: the server first, then the loops in order. -/
def fatesOf (server : Option (Course Server)) (loops : List (Course RequestLoop)) : List Fate :=
  (server.map Course.fate).toList ++ loops.map Course.fate

/-- What a task has come to at the deadline. -/
def atDeadline {α : Type} (deadline : Nat) (giveUp : α → α) (c : Course α) : α :=
  c.outcome giveUp (!c.fate.endsBefore deadline)

/-- A task that ends in time comes to its end. -/
theorem atDeadline_of_endsBefore {α : Type} {deadline : Nat} {giveUp : α → α} {c : Course α}
    (h : c.fate.endsBefore deadline = true) : atDeadline deadline giveUp c = c.ended := by
  rw [atDeadline, h]
  rfl

theorem atDeadline_of_runsAt {α : Type} {deadline : Nat} {giveUp : α → α} {c : Course α}
    (h : c.fate.runsAt deadline = true) : atDeadline deadline giveUp c = giveUp c.busy := by
  have hlate : c.fate.endsBefore deadline = false := by
    cases hf : c.fate with
    | ended => rw [hf] at h; cases h
    | lasts => rfl
    | ends time =>
      simp only [hf, Fate.runsAt, Fate.endsBefore, decide_eq_true_eq, decide_eq_false_iff_not]
        at h ⊢
      omega
  rw [atDeadline, hlate]
  rfl

theorem await_le {deadline now : Nat} (h : now ≤ deadline) (f : Fate) :
    (Drain.await deadline now f).1 ≤ deadline := by
  cases f with
  | ended => exact h
  | lasts => exact Nat.max_le.mpr ⟨h, Nat.le_refl _⟩
  | ends time =>
    simp only [Drain.await]
    split
    · exact Nat.max_le.mpr ⟨h, by omega⟩
    · exact Nat.max_le.mpr ⟨h, Nat.le_refl _⟩

theorem zipWith_outcome {α : Type} (giveUp : α → α) (deadline : Nat) (tasks : List (Course α)) :
    List.zipWith (Course.outcome giveUp) tasks
      ((tasks.map Course.fate).map (!·.endsBefore deadline)) =
        tasks.map (atDeadline deadline giveUp) := by
  rw [List.map_map, List.zipWith_map_right, List.zipWith_self]
  rfl

/-- Each task comes to what it is at the deadline, and the time is that of all of them together. -/
theorem drainTasks_eq (l : Lifecycle) (reason : StopReason) (now : Nat)
    (server : Option (Course Server)) (loops : List (Course RequestLoop)) :
    let deadline := now + l.drain
    let inTime := (fatesOf server loops).all (·.endsBefore deadline)
    let server' := match server with
      | some c => some (atDeadline deadline Server.abort c)
      | none => l.server
    let loops' := loops.map (atDeadline deadline RequestLoop.abort)
    l.drainTasks reason now server loops =
      ({ l with
          state := .stopped
          server := server'
          loops := if l.awaitsLoops then loops' else l.loops
          report := some {
            scenario := l.scenario
            state := .stopped
            stopReason := reason
            loops := loops'.map RequestLoop.report
            server := server'.map Server.stats
            drainTimedOut := !inTime } },
        if inTime then Drain.lastEnd now (fatesOf server loops) else deadline) := by
  have hnow : now ≤ now + l.drain := Nat.le_add_right _ _
  have hany (fates : List Fate) : (fates.map (!·.endsBefore (now + l.drain))).any id =
      !fates.all (·.endsBefore (now + l.drain)) := by
    rw [List.any_map, List.not_all_eq_any_not]
    rfl
  cases server with
  | none =>
    simp only [drainTasks, Drain.awaitAll_eq hnow, zipWith_outcome, hany, fatesOf, Option.map_none,
      Option.toList_none, List.nil_append, Bool.false_or]
    rfl
  | some c =>
    -- To await the server and then the loops is to await them all.
    have hall := Drain.awaitAll_eq hnow (c.fate :: loops.map Course.fate)
    simp only [Drain.awaitAll, Drain.awaitAll_eq (await_le hnow c.fate), Prod.mk.injEq] at hall
    have hlate :
        (Drain.await (now + l.drain) now c.fate).2 = !c.fate.endsBefore (now + l.drain) := by
      rw [Drain.await_eq hnow]
    simp only [drainTasks, Drain.awaitAll_eq (await_le hnow c.fate), zipWith_outcome, hany, fatesOf,
      Option.map_some, Option.toList_some, List.singleton_append, hall.1, hlate, List.all_cons,
      Bool.not_and, atDeadline]
    rfl

/-- A lifecycle whose shutdown has not been given up awaits all its tasks, and these are the courses
they go. A loop keeps its method, and has come to an end when its course has. -/
structure Attends (l : Lifecycle) (server : Option (Course Server))
    (loops : List (Course RequestLoop)) : Prop where
  awaitsServer : l.awaitsServer = true
  awaitsLoops : l.awaitsLoops = true
  busy_server : server.map Course.busy = l.server
  busy_loops : loops.map Course.busy = l.loops
  method : ∀ c ∈ loops, c.ended.method = c.busy.method
  isOver : ∀ c ∈ loops, c.fate ≠ .lasts → c.ended.isOver = true

theorem method_drained (l : RequestLoop) : (drained l).method = l.method := by
  have hhalt (l : RequestLoop) : l.halt.method = l.method := by
    unfold RequestLoop.halt
    split <;> rfl
  cases hphase : l.phase with
  | waiting => simp only [drained, hphase, hhalt]
  | ended _ | crashed | aborted => simp only [drained, hphase]
  | calling back =>
    cases back with
    | never => simp only [drained, hphase]
    | atOnce acknowledged | «at» time acknowledged =>
      simp only [drained, hphase]
      split
      · rw [hhalt, RequestLoop.method_receive]
      · exact RequestLoop.method_receive l acknowledged

theorem isOver_drained {l : RequestLoop} {now : Nat} (h : loopFate now l ≠ .lasts) :
    (drained l).isOver = true := by
  cases hphase : l.phase with
  | waiting => simp only [drained, hphase, RequestLoop.isOver_halt]
  | ended _ | crashed | aborted => simp only [drained, hphase, RequestLoop.isOver]
  | calling back =>
    cases back with
    | never => exact absurd (by simp only [loopFate, hphase]) h
    | atOnce acknowledged | «at» time acknowledged =>
      simp only [drained, hphase]
      rcases l.phase_receive acknowledged with hw | ⟨why, he⟩
      · rw [if_pos hw, RequestLoop.isOver_halt]
      · rw [if_neg (by simp [he]), RequestLoop.isOver, he]

/-- A lifecycle attends to its own tasks as they are. -/
theorem attends_own (hs : l.awaitsServer = true) (hl : l.awaitsLoops = true) (now : Nat) :
    l.Attends (l.server.map (serverCourse now)) (l.loops.map (loopCourse now)) where
  awaitsServer := hs
  awaitsLoops := hl
  busy_server := by
    rw [Option.map_map]
    exact Option.map_id'
  busy_loops := by
    rw [List.map_map]
    exact List.map_id' l.loops
  method c hc := by
    obtain ⟨r, -, rfl⟩ := List.mem_map.mp hc
    exact method_drained r
  isOver c hc hf := by
    obtain ⟨r, -, rfl⟩ := List.mem_map.mp hc
    exact isOver_drained hf

/-- A shutdown awaits the tasks of its lifecycle in the courses it expects of them. -/
theorem shutdown_eq_drainTasks (hs : l.awaitsServer = true) (hl : l.awaitsLoops = true)
    (reason : StopReason) (now : Nat) : l.shutdown reason now =
      l.drainTasks reason now (l.server.map (serverCourse now)) (l.loops.map (loopCourse now)) := by
  have hserver : l.beginShutdown.awaitedServer = l.server := by
    simp only [awaitedServer, beginShutdown, hs]
    cases l.server <;> rfl
  have hloops : l.beginShutdown.awaitedLoops = l.loops := if_pos hl
  rw [shutdown, endShutdown, hserver, hloops]
  rfl

/-- At the deadline every loop is over, by itself or given up. -/
theorem isOver_atDeadline (h : l.Attends server loops) {c : Course RequestLoop} (hc : c ∈ loops)
    (deadline : Nat) : (atDeadline deadline RequestLoop.abort c).isOver = true := by
  rw [atDeadline, Course.outcome]
  split
  · rfl
  · next hin =>
    apply h.isOver c hc
    intro hf
    simp [hf, Fate.endsBefore] at hin

theorem method_atDeadline (h : l.Attends server loops) {c : Course RequestLoop} (hc : c ∈ loops)
    (deadline : Nat) : (atDeadline deadline RequestLoop.abort c).method = c.busy.method := by
  rw [atDeadline, Course.outcome]
  split
  · rfl
  · exact h.method c hc

theorem report_ended {c : Course RequestLoop} {deadline : Nat}
    (h : c.fate.endsBefore deadline = true) :
    (atDeadline deadline RequestLoop.abort c).report = c.ended.report := by
  rw [atDeadline_of_endsBefore h]

/-- A loop that is given up is reported with its counts so far. -/
theorem report_aborted {c : Course RequestLoop} {deadline : Nat}
    (h : c.fate.runsAt deadline = true) :
    (atDeadline deadline RequestLoop.abort c).report = ⟨c.busy.method, c.busy.tally, none⟩ := by
  rw [atDeadline_of_runsAt h]
  rfl

theorem endedBy_of_crashed {l : RequestLoop} (h : l.phase = .crashed) :
    l.report.endedBy = none := by
  simp only [RequestLoop.report, h]

/-- With no task that ends at the very deadline, some task is late when some task still runs. -/
theorem all_endsBefore_iff {deadline : Nat} {fates : List Fate}
    (hends : ∀ f ∈ fates, f ≠ .ends deadline) :
    fates.all (·.endsBefore deadline) = !fates.any (·.runsAt deadline) := by
  rw [List.not_any_eq_all_not, Bool.eq_iff_iff]
  simp only [List.all_eq_true]
  refine forall₂_congr fun f hf => ?_
  rw [Fate.runsAt_eq_not_endsBefore (hends f hf), Bool.not_not]

/-- All tasks have the same deadline, whatever the others do. The shutdown is done with the last of
them, or at the deadline if one still runs then, and this alone makes the drain time out. Each loop
has its entry, in order: a loop that has ended in time is reported as it ended, without an end if it
crashed; one that still runs is given up and reported with its counts so far. No loop sends anything
afterwards. The shutdown of a lifecycle does so with its own server and loops, and these do go the
courses that it expects of them: the loops whatever happens, and the server if nothing more arrives
on the connections that are open. -/
theorem drains_to_deadline (hs : l.awaitsServer = true) (hl : l.awaitsLoops = true)
    (reason : StopReason) (now : Nat) :
    let deadline := now + l.drain
    (∀ server loops, l.Attends server loops →
      let fates := fatesOf server loops
      (∀ f ∈ fates, f ≠ .ends deadline) →
      let done := l.drainTasks reason now server loops
      (fates.all (·.endsBefore deadline) = true → done.2 = Drain.lastEnd now fates) ∧
      (fates.any (·.runsAt deadline) = true → done.2 = deadline) ∧
      done.1.state = .stopped ∧
      (∀ w : LoopWorld, w.loop ∈ done.1.loops → ∀ script schedule k,
        (w.run script schedule k).sent = w.sent) ∧
      ∃ report, done.1.report = some report ∧
        (report.drainTimedOut = true ↔ ∃ f ∈ fates, f.runsAt deadline = true) ∧
        report.loops.map LoopReport.method = l.loops.map RequestLoop.method ∧
        ∀ (i : Nat) (c : Course RequestLoop), loops[i]? = some c →
          (c.fate.endsBefore deadline = true →
            report.loops[i]? = some c.ended.report ∧
            (c.ended.phase = .crashed → c.ended.report.endedBy = none)) ∧
          (c.fate.runsAt deadline = true →
            report.loops[i]? = some ⟨c.busy.method, c.busy.tally, none⟩ ∧
            done.1.loops[i]? = some c.busy.abort)) ∧
    (let server := l.server.map (serverCourse now)
      let loops := l.loops.map (loopCourse now)
      l.Attends server loops ∧ l.shutdown reason now = l.drainTasks reason now server loops) ∧
    (∀ w : LoopWorld, w.loop ∈ l.loops → w.now = now → w.stop.isTriggered = true →
      ∀ script schedule, w.GoesBy (loopCourse now w.loop) script schedule) ∧
    ∀ w : ServerWorld, l.server = some w.server → w.now = now → w.stop.isTriggered = true →
      ∀ schedule, (w.server.isDrained = false → w.LeftAlone schedule) →
        w.GoesBy (serverCourse now w.server) schedule := by
  intro deadline
  refine ⟨?_, ⟨attends_own hs hl now, shutdown_eq_drainTasks hs hl reason now⟩, ?_, ?_⟩
  · intro server loops h fates hends done
    have heq : done = _ := drainTasks_eq l reason now server loops
    have hlate := all_endsBefore_iff hends
    have hentry (i : Nat) (c : Course RequestLoop) (hc : loops[i]? = some c) :
        (loops.map (atDeadline deadline RequestLoop.abort))[i]? =
          some (atDeadline deadline RequestLoop.abort c) := by
      rw [List.getElem?_map, hc, Option.map_some]
    rw [heq]
    simp only [h.awaitsLoops, if_true]
    refine ⟨fun hall => if_pos hall, fun hany => if_neg ?_, trivial, ?_, _, rfl, ?_, ?_,
      fun i c hc => ⟨fun hin => ⟨?_, endedBy_of_crashed⟩, fun hruns => ⟨?_, ?_⟩⟩⟩
    · rw [hlate, hany]
      nofun
    · intro w hw script schedule k
      obtain ⟨c, hc, hcw⟩ := List.mem_map.mp hw
      exact LoopWorld.sent_run_of_isOver (by rw [← hcw, isOver_atDeadline h hc]) script schedule k
    · rw [hlate, Bool.not_not, List.any_eq_true]
    · rw [List.map_map, List.map_map, ← h.busy_loops, List.map_map]
      exact List.map_congr_left fun c hc => method_atDeadline h hc deadline
    · rw [List.getElem?_map, hentry i c hc, Option.map_some, report_ended hin]
    · rw [List.getElem?_map, hentry i c hc, Option.map_some, report_aborted hruns]
    · rw [hentry i c hc, atDeadline_of_runsAt hruns]
  · intro w _ hnow hstop script schedule
    subst hnow
    exact LoopWorld.goesBy_loopCourse hstop script schedule
  · intro w _ hnow hstop schedule halone
    subst hnow
    refine ServerWorld.goesBy_serverCourse hstop ?_
    cases hdrained : w.server.isDrained with
    | false => exact halone hdrained
    | true => exact ServerWorld.leftAlone_of_isDrained hdrained schedule

def someProfile : Profile := ⟨"me", "me", ⟨"host", 1⟩, 0⟩

/-- A connection and a heartbeat that never end, a tell that does, and a loop that has crashed. -/
def busyLifecycle : Lifecycle where
  scenario := "5.1"
  drain := 100
  state := .running
  server := some {
    endpoint := ⟨"host", 1⟩
    table := .empty
    connections := [{}] }
  loops := [
    { method := .heartbeat
      cadence := .periodic { interval := 10 }
      profile := someProfile
      tally := { attempts := 3, successes := 2 }
      phase := .calling .never },
    { method := .tell
      cadence := .single
      profile := someProfile
      tally := { attempts := 1, lastSequence := some .first }
      phase := .calling (.at 60 true) },
    { method := .narrate
      cadence := .periodic { interval := 0 }
      profile := someProfile
      phase := .crashed }]

/-- The server and the first loop use up the whole time, and the second is still reported as it has
ended. -/
theorem busyLifecycle_shutdown :
    let done := busyLifecycle.shutdown .external 10
    done.2 = 110 ∧ ∃ report, done.1.report = some report ∧ report.drainTimedOut = true ∧
      report.loops[0]? = some ⟨.heartbeat, { attempts := 3, successes := 2 }, none⟩ ∧
      report.loops[1]? = some ⟨.tell,
        { attempts := 1, successes := 1, lastSequence := some .first }, some .singleShotDone⟩ ∧
      report.loops[2]? = some ⟨.narrate, {}, none⟩ := by
  obtain ⟨hdrains, ⟨hattends, hown⟩, -⟩ :=
    drains_to_deadline (l := busyLifecycle) rfl rfl .external 10
  obtain ⟨-, hlate, -, -, report, hreport, htimedOut, -, hentry⟩ :=
    hdrains _ _ hattends (by decide)
  rw [hown]
  refine ⟨hlate rfl, report, hreport, htimedOut.mpr ⟨.lasts, by decide, rfl⟩, ?_, ?_, ?_⟩
  · exact ((hentry 0 _ rfl).2 rfl).1
  · exact ((hentry 1 _ rfl).1 rfl).1
  · exact ((hentry 2 _ rfl).1 rfl).1

end Lifecycle
end ScriptedPeer
