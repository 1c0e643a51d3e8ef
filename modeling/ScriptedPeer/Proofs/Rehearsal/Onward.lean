import ScriptedPeer.Proofs.Lifecycle.Draining
import ScriptedPeer.Rehearsal.Play

/-!
# Rehearsals go on

Whatever the tasks of a rehearsal do in their turns, a stop that has been given stays as it is, no
loop and no server comes or goes, and only a shutdown makes the report. So a wait for the stop ends
with a report exactly when the stop has been given by then.
-/

namespace ScriptedPeer

namespace Lifecycle

/-- What the turns of its tasks make of a lifecycle. -/
structure GoesOn (l l' : Lifecycle) : Prop where
  stop : l.stop.isTriggered = true → l'.stop = l.stop
  server : l'.server.isSome = l.server.isSome
  methods : l'.loops.map (·.method) = l.loops.map (·.method)
  rest : l' = { l with stop := l'.stop, server := l'.server, loops := l'.loops }

namespace GoesOn

variable {l l' l'' : Lifecycle}

theorem refl (l : Lifecycle) : l.GoesOn l := ⟨fun _ => rfl, rfl, rfl, rfl⟩

theorem trans (h : l.GoesOn l') (h' : l'.GoesOn l'') : l.GoesOn l'' where
  stop hs := by
    have hstop := h.stop hs
    rw [h'.stop (by rw [hstop, hs]), hstop]
  server := h'.server.trans h.server
  methods := h'.methods.trans h.methods
  rest := by
    rw [h'.rest, h.rest]

theorem scenario (h : l.GoesOn l') : l'.scenario = l.scenario := by rw [h.rest]

theorem isTriggered (h : l.GoesOn l') (hs : l.stop.isTriggered = true) :
    l'.stop.isTriggered = true := by
  rw [h.stop hs, hs]

end GoesOn

/-- What every report of a lifecycle says, whether the lifecycle has been started or is still to
be. -/
structure ReportedBy (l : Lifecycle) (report : RunReport) : Prop where
  scenario : report.scenario = l.scenario
  state : report.state = .stopped
  stopReason : ∀ reason, l.stop.reason = some reason → report.stopReason = reason
  methods : report.loops.map (·.method) = (l.pending ++ l.loops).map (·.method)
  server : report.server.isSome = (l.listen.isSome || l.server.isSome)

/-- A lifecycle that has been started, with all its tasks to be awaited. -/
structure IsRunning (l : Lifecycle) : Prop where
  pending : l.pending = []
  listen : l.listen = none
  report : l.report = none
  awaitsServer : l.awaitsServer = true
  awaitsLoops : l.awaitsLoops = true

/-- A lifecycle that runs goes on running until it is shut down. -/
theorem IsRunning.goesOn {l l' : Lifecycle} (h : l.IsRunning) (hgoes : l.GoesOn l') :
    l'.IsRunning := by
  rw [hgoes.rest]
  exact ⟨h.pending, h.listen, h.report, h.awaitsServer, h.awaitsLoops⟩

/-- A report of what a lifecycle has become is one of the lifecycle that it was. -/
theorem ReportedBy.of_goesOn {l l' : Lifecycle} {report : RunReport} (h : l'.ReportedBy report)
    (hgoes : l.GoesOn l') : l.ReportedBy report where
  scenario := h.scenario.trans hgoes.scenario
  state := h.state
  stopReason reason hr := by
    refine h.stopReason reason ?_
    rw [hgoes.stop (by rw [StopSignal.isTriggered, hr, Option.isSome_some]), hr]
  methods := by
    rw [h.methods, List.map_append, List.map_append, hgoes.methods, hgoes.rest]
  server := by
    rw [h.server, hgoes.server, hgoes.rest]

/-- Without a report the stop has not been seen. -/
theorem isTriggered_of_waitForStop {l : Lifecycle} {now : Nat}
    (h : l.waitForStop now = none) : l.stop.isTriggered = false := by
  unfold waitForStop at h
  cases hreport : l.report with
  | some report => simp [hreport] at h
  | none =>
    cases hstop : l.stop.reason with
    | none => rw [StopSignal.isTriggered, hstop, Option.isSome_none]
    | some reason =>
      simp only [hreport, hstop] at h
      cases h

/-- The report is made once the stop is there, and says with what reason. -/
theorem reportedBy_of_waitForStop {l l' : Lifecycle} {now time : Nat} {report : RunReport}
    (hruns : l.IsRunning) (h : l.waitForStop now = some (report, l', time)) :
    l.ReportedBy report ∧ l.stop.isTriggered = true ∧ l'.stop = l.stop := by
  unfold waitForStop at h
  rw [hruns.report] at h
  cases hstop : l.stop.reason with
  | none =>
    rw [hstop] at h
    cases h
  | some reason =>
    rw [hstop] at h
    simp only [shutdown_eq_drainTasks hruns.awaitsServer hruns.awaitsLoops, drainTasks_eq,
      Option.map_some, Option.some.injEq, Prod.mk.injEq] at h
    obtain ⟨rfl, rfl, -⟩ := h
    have hattends := attends_own hruns.awaitsServer hruns.awaitsLoops now
    refine ⟨⟨rfl, rfl, fun other ho => ?_, ?_, ?_⟩, ?_, rfl⟩
    · exact Option.some.inj (hstop.symm.trans ho)
    · rw [hruns.pending, List.nil_append]
      simp only [List.map_map]
      refine List.map_congr_left fun r hr => ?_
      exact method_atDeadline hattends (List.mem_map_of_mem hr) (now + l.drain)
    · rw [hruns.listen]
      cases l.server <;> rfl
    · rw [StopSignal.isTriggered, hstop, Option.isSome_some]

end Lifecycle

namespace Rehearsal

variable {r : Rehearsal} {n : Nat} {l : RequestLoop}

theorem goesOn_setLoop (hl : r.lifecycle.loops[n]? = some l) {l' : RequestLoop}
    (hm : l'.method = l.method) : r.lifecycle.GoesOn (r.setLoop n l').lifecycle := by
  refine ⟨fun _ => rfl, rfl, ?_, rfl⟩
  obtain ⟨hn, rfl⟩ := List.getElem?_eq_some_iff.mp hl
  have hlength : n < (r.lifecycle.loops.map (·.method)).length := by rwa [List.length_map]
  have hmethod : (r.lifecycle.loops.map (·.method))[n] = l'.method := by
    rw [List.getElem_map, hm]
  rw [setLoop, List.map_set, ← hmethod, List.set_getElem_self]

theorem goesOn_trigger (r : Rehearsal) (reason : Option StopReason) :
    r.lifecycle.GoesOn (r.trigger reason).lifecycle := by
  cases reason with
  | none => exact .refl _
  | some reason => exact ⟨fun hs => StopSignal.trigger_of_isTriggered hs reason, rfl, rfl, rfl⟩

/-- Whatever a loop does, its lifecycle goes on. -/
theorem goesOn_act (hl : r.lifecycle.loops[n]? = some l) (action : RequestLoop.Action) :
    r.lifecycle.GoesOn (r.act n l action).lifecycle := by
  cases action with
  | rest => exact .refl _
  | send => exact goesOn_setLoop hl (RequestLoop.method_send ..)
  | receive acknowledged =>
    exact (goesOn_setLoop hl (RequestLoop.method_receive l acknowledged)).trans (goesOn_trigger _ _)
  | finish _ | crash => exact goesOn_setLoop hl rfl

theorem goesOn_goOn (n count left : Nat) (r : Rehearsal) :
    r.lifecycle.GoesOn (goOn n count left r).2.lifecycle := by
  induction count generalizing left r with
  | zero => exact .refl _
  | succ count ih =>
    unfold goOn
    split
    · exact .refl _
    · next l hl =>
      dsimp only
      split
      · exact .refl _
      · split
        · exact .refl _
        · exact (goesOn_act hl _).trans (ih _ _)

theorem goesOn_turn (r : Rehearsal) (task : Task) :
    r.lifecycle.GoesOn (r.turn task).2.lifecycle := by
  unfold turn
  dsimp only
  split
  · exact .refl _
  · cases task with
    | server =>
      cases hs : r.lifecycle.server with
      | none => exact .refl _
      | some s => exact ⟨fun _ => rfl, by rw [hs]; rfl, rfl, rfl⟩
    | loop n =>
      have hturn := goesOn_goOn n stepsOfTurn longestTurn
        { r with line := r.line.erase (.loop n), roused := r.roused.erase (.loop n) }
      dsimp only
      split <;> exact hturn

theorem goesOn_roundUpTo (count : Nat) (brokenOff : List Task) (r : Rehearsal) :
    r.lifecycle.GoesOn (roundUpTo count brokenOff r).lifecycle := by
  induction count generalizing brokenOff r with
  | zero => exact .refl _
  | succ count ih =>
    unfold roundUpTo
    split
    · exact .refl _
    · next task _ => exact (goesOn_turn r task).trans (ih _ _)

theorem goesOn_workUpTo (untilStop : Bool) (count : Nat) (r : Rehearsal) :
    r.lifecycle.GoesOn (workUpTo untilStop count r).lifecycle := by
  induction count generalizing r with
  | zero => exact .refl _
  | succ count ih =>
    unfold workUpTo
    split
    · exact .refl _
    · exact (goesOn_roundUpTo longestRound [] r).trans (ih r.round)

theorem goesOn_settle (r : Rehearsal) : r.lifecycle.GoesOn r.settle.lifecycle :=
  goesOn_workUpTo false _ r

theorem goesOn_passUpTo (limit : Nat) (untilStop : Bool) (count : Nat) (r : Rehearsal) :
    r.lifecycle.GoesOn (passUpTo limit untilStop count r).lifecycle := by
  induction count generalizing r with
  | zero => exact .refl _
  | succ count ih =>
    unfold passUpTo
    split
    · exact .refl _
    · split
      · exact .refl _
      · next time _ =>
        split
        · exact (goesOn_workUpTo untilStop _ { r with now := time }).trans (ih _)
        · exact .refl _

theorem goesOn_untilStop (r : Rehearsal) (last : Nat) :
    r.lifecycle.GoesOn (r.untilStop last).lifecycle := by
  have hpass := goesOn_passUpTo last true (last - r.now) r
  unfold untilStop
  dsimp only
  split
  · exact hpass
  · exact hpass.trans (goesOn_settle { r.pass last true with now := last })

theorem goesOn_lookAt (r : Rehearsal) (task : Task) :
    r.lifecycle.GoesOn (r.lookAt task).lifecycle := by
  unfold lookAt
  split <;> exact .refl _

theorem goesOn_lookAtAll (left : Nat) (tasks : List Task) (r : Rehearsal) :
    r.lifecycle.GoesOn (lookAtAll left tasks r).lifecycle := by
  induction tasks generalizing left r with
  | nil => cases left <;> exact .refl _
  | cons task rest ih =>
    cases left with
    | zero =>
      have hround := goesOn_roundUpTo longestRound [] r
      exact hround.trans ((goesOn_lookAt r.round task).trans (ih _ _))
    | succ left => exact (goesOn_lookAt r task).trans (ih _ _)

/-- A wait goes on to some instant, and shuts down there if it can. -/
theorem wait_eq (r : Rehearsal) (limit : Nat) :
    ∃ r' : Rehearsal, r.lifecycle.GoesOn r'.lifecycle ∧
      r.wait limit = match r'.lifecycle.waitForStop r'.now with
        | some (report, lifecycle, now) => ({ r' with lifecycle, now }, some report)
        | none => (r', none) := by
  let ready := (r.untilStop (r.now + limit)).settle
  have hready : r.lifecycle.GoesOn ready.lifecycle :=
    (goesOn_untilStop r (r.now + limit)).trans (goesOn_settle _)
  refine ⟨if ready.hasNoTime then lookAtAll Lifecycle.mostAtOnce ready.awaited ready else ready,
    hready.trans ?_, rfl⟩
  split
  · exact goesOn_lookAtAll ..
  · exact .refl _

/-- A wait brings a report exactly when the stop has been given by its end, and always when it was
given before. -/
theorem wait_spec (hruns : r.lifecycle.IsRunning) (limit : Nat) :
    ((r.wait limit).2 = none ↔ (r.wait limit).1.stopped = false) ∧
    (r.stopped = true → (r.wait limit).2 ≠ none) ∧
    ∀ report, (r.wait limit).2 = some report → r.lifecycle.ReportedBy report := by
  obtain ⟨r', hgoes, hwait⟩ := r.wait_eq limit
  rw [hwait]
  cases hdone : r'.lifecycle.waitForStop r'.now with
  | none =>
    have hstop := Lifecycle.isTriggered_of_waitForStop hdone
    refine ⟨iff_of_true rfl hstop, fun hgiven => ?_, fun report hm => ?_⟩
    · rw [hgoes.isTriggered hgiven] at hstop
      cases hstop
    · cases hm
  | some done =>
    obtain ⟨report, lifecycle, now⟩ := done
    obtain ⟨hmade, hstop, hkept⟩ :=
      Lifecycle.reportedBy_of_waitForStop (hruns.goesOn hgoes) hdone
    have hstopped : ({ r' with lifecycle, now } : Rehearsal).stopped = true := by
      rw [stopped, hkept, hstop]
    refine ⟨?_, fun _ => Option.some_ne_none report, fun made hm => ?_⟩
    · simp only [hstopped, reduceCtorEq]
    · cases hm
      exact hmade.of_goesOn hgoes

end Rehearsal
end ScriptedPeer
