import ScriptedPeer.Proofs.Program.Beginning

/-!
# How the program exits

Arguments that ask for more than a print name a scenario and two endpoints, so that only the
settings and the scenario can still be at fault when the lifecycle is built. The exit code tells how
far the program has got: two when it has started nothing, one when the start has failed, and zero
when there is a report. A program that goes on has none.
-/

namespace ScriptedPeer

/-- Arguments to play a scenario name all that is needed for it. -/
theorem Arguments.present_of_parse {ss : List String} {a : Arguments} (h : parse ss = .ok a)
    (hplay : a.onlyPrints = false) :
    (∃ scenario, a.scenario = some scenario) ∧ (∃ source, a.source = some source) ∧
      ∃ peer, a.peer = some peer := by
  have hcomplete := isComplete_of_parse h
  simp only [isComplete, hplay, Bool.false_or, Bool.and_eq_true, Option.isSome_iff_exists]
    at hcomplete
  obtain ⟨⟨hsource, hpeer⟩, hscenario⟩ := hcomplete
  exact ⟨hscenario, hsource, hpeer⟩

namespace Launch

variable {l : Launch} {fault : RunFault}

/-- With somebody to call and an endpoint to listen on, only the settings and the scenario are left
to be refused. -/
theorem build_eq_error_of_endpoints (hlisten : l.listen ≠ none) (hpeer : l.hasPeer = true) :
    l.build = .error fault ↔ ∃ why, fault = .settings why ∧
      (l.settings.validate = .error why ∨
        l.settings.validate = .ok () ∧ Catalog.lookup l.scenario = .error why) := by
  cases hs : l.settings.validate with
  | error why =>
    rw [build_of_invalid hs]
    simp [eq_comm]
  | ok _ =>
    cases hp : Catalog.lookup l.scenario with
    | error why =>
      rw [build_of_lost hs hp]
      simp [eq_comm]
    | ok p =>
      rw [build_of_found hs hp, lacksEndpoint_eq_false.mpr fun _ => hlisten,
        lacksPeer_eq_false.mpr fun _ => hpeer]
      simp

end Launch

/-- The input is at fault: the settings, the file they come from, or the scenario. -/
inductive ProgramFault.OfInput : ProgramFault → Prop
  | refused (why : SettingsFault) : OfInput (.run (.settings why))
  | unreadable (why : String) : OfInput (.settings why)
  | notSettings : OfInput .notSettings

theorem ProgramFault.ofInput_iff {fault : ProgramFault} :
    fault.OfInput ↔ fault.isConfiguration = true := by
  constructor
  · intro h
    cases h <;> rfl
  · intro h
    cases fault with
    | run fault =>
      cases fault with
      | settings why => exact .refused why
      | call _ | wire _ | bind _ _ => cases h
    | settings why => exact .unreadable why
    | notSettings => exact .notSettings
    | io _ | signal _ => cases h

/-- A fault leads to the code of its kind. -/
theorem ExitCode.of_error (fault : ProgramFault) :
    (of (.error fault : Except ProgramFault RunReport) = badInput ↔ fault.OfInput) ∧
      (of (.error fault : Except ProgramFault RunReport) = failure ↔ ¬fault.OfInput) := by
  rw [ProgramFault.ofInput_iff, of]
  cases fault.isConfiguration <;> decide

/-- Settings come from a file checked, or the input is at fault. -/
theorem Settings.load_cases (path : String) (content : FileContent) :
    (∃ s, load path content = .ok s ∧ s.validate = .ok ()) ∨
      ∃ fault, load path content = .error fault ∧ fault.isConfiguration = true := by
  cases content with
  | error why => exact .inr ⟨_, rfl, rfl⟩
  | ok bytes =>
    cases hutf8 : String.fromUTF8? bytes with
    | none =>
      right
      simp only [load, hutf8]
      exact ⟨_, rfl, rfl⟩
    | some text =>
      cases hparsed : Settings.parse text with
      | none =>
        right
        simp only [load, hutf8, hparsed]
        exact ⟨_, rfl, rfl⟩
      | some s =>
        cases hvalid : s.validate with
        | error fault =>
          right
          simp only [load, hutf8, hparsed, hvalid]
          exact ⟨_, rfl, rfl⟩
        | ok _ => exact .inl ⟨s, by simp only [load, hutf8, hparsed, hvalid], hvalid⟩

namespace Program

variable {a : Arguments} {p : Program} {w : World} {lifecycle : Lifecycle}

/-- Settings that can be played with come of the preparation, or a fault of the input. -/
theorem prepare_cases (a : Arguments) (contentOf : String → FileContent) :
    (∃ settings, prepare a contentOf = .ok { arguments := a, settings } ∧
      settings.validate = .ok ()) ∨
    ∃ fault, prepare a contentOf = .error fault ∧ fault.isConfiguration = true := by
  unfold prepare
  cases a.settingsFile with
  | none => exact .inl ⟨{}, rfl, Settings.validate_default⟩
  | some path =>
    rcases Settings.load_cases path (contentOf path) with ⟨s, hs, hvalid⟩ | ⟨fault, hf, hconf⟩
    · exact .inl ⟨s, by simp only [hs, Except.map], hvalid⟩
    · exact .inr ⟨fault, by simp only [hf, Except.map], hconf⟩

theorem isConfiguration_of_prepare {contentOf : String → FileContent} {fault : ProgramFault}
    (h : prepare a contentOf = .error fault) : fault.isConfiguration = true := by
  rcases prepare_cases a contentOf with ⟨_, hp, -⟩ | ⟨other, hp, hconf⟩
  · rw [hp] at h
    cases h
  · rw [hp] at h
    cases h
    exact hconf

/-- What is launched for a scenario. -/
def launch (p : Program) (scenario : String) (stop : StopSignal) : Launch where
  scenario
  settings := p.settings
  listen := p.arguments.source
  hasPeer := p.arguments.peer.isSome
  stop

/-- A program builds the launch of the scenario that it was given. -/
theorem build_of_scenario {scenario : String} (h : p.arguments.scenario = some scenario)
    (stop : StopSignal) : p.build stop = (p.launch scenario stop).build.mapError .run := by
  simp only [build, h, launch]
  cases Launch.build _ <;> rfl

theorem build_of_no_scenario (h : p.arguments.scenario = none) (stop : StopSignal) :
    p.build stop = .error (.settings "No scenario given") := by
  simp only [build, h]

theorem mapError_eq_error_iff {α : Type} {r : Except RunFault α} {fault : ProgramFault} :
    r.mapError ProgramFault.run = .error fault ↔
      ∃ other, r = .error other ∧ fault = .run other := by
  cases r <;> simp [Except.mapError, eq_comm]

/-- Where scenario and endpoints are given, the settings and the scenario are all that building the
lifecycle can fail for. -/
theorem build_eq_error_iff {scenario : String} (hscenario : p.arguments.scenario = some scenario)
    (hsource : p.arguments.source ≠ none) (hpeer : p.arguments.peer.isSome = true)
    (stop : StopSignal) (fault : ProgramFault) :
    p.build stop = .error fault ↔ ∃ why, fault = .run (.settings why) ∧
      (p.settings.validate = .error why ∨
        p.settings.validate = .ok () ∧ Catalog.lookup scenario = .error why) := by
  have hlaunch (other : RunFault) : (p.launch scenario stop).build = .error other ↔
      ∃ why, other = .settings why ∧ (p.settings.validate = .error why ∨
        p.settings.validate = .ok () ∧ Catalog.lookup scenario = .error why) :=
    Launch.build_eq_error_of_endpoints hsource hpeer
  rw [build_of_scenario hscenario, mapError_eq_error_iff]
  constructor
  · rintro ⟨other, h, rfl⟩
    obtain ⟨why, rfl, hwhy⟩ := (hlaunch other).mp h
    exact ⟨why, rfl, hwhy⟩
  · rintro ⟨why, rfl, hwhy⟩
    exact ⟨.settings why, (hlaunch _).mpr ⟨why, rfl, hwhy⟩, rfl⟩

theorem build_isConfiguration {stop : StopSignal} {fault : ProgramFault}
    (h : p.build stop = .error fault) : fault.isConfiguration = true := by
  cases hs : p.arguments.scenario with
  | none =>
    rw [build_of_no_scenario hs] at h
    cases h
    rfl
  | some scenario =>
    rw [build_of_scenario hs, mapError_eq_error_iff] at h
    obtain ⟨other, hrefused, rfl⟩ := h
    exact (Launch.build_eq_error_iff.mp hrefused).isConfiguration

/-- What is built is what a plan is wired to, with the stop as it was given. -/
theorem exists_plan_of_build {stop : StopSignal} (h : p.build stop = .ok lifecycle) :
    ∃ (l : Launch) (plan : Plan), l.stop = stop ∧ lifecycle = l.lifecycle plan := by
  cases hs : p.arguments.scenario with
  | none =>
    rw [build_of_no_scenario hs] at h
    cases h
  | some scenario =>
    rw [build_of_scenario hs] at h
    cases hb : (p.launch scenario stop).build with
    | error fault =>
      rw [hb] at h
      cases h
    | ok built =>
      rw [hb] at h
      cases h
      obtain ⟨plan, -, hbuilt⟩ := Launch.build_eq_ok_iff.mp hb
      exact ⟨p.launch scenario stop, plan, rfl, hbuilt⟩

/-- The stop plays no part in whether a lifecycle is built. -/
theorem build_error_of_stop {stop : StopSignal} {fault : ProgramFault}
    (h : p.build stop = .error fault) (other : StopSignal) : p.build other = .error fault := by
  cases hs : p.arguments.scenario with
  | none => rwa [build_of_no_scenario hs] at h ⊢
  | some scenario =>
    rw [build_of_scenario hs, mapError_eq_error_iff] at h ⊢
    -- The launch differs in its stop alone.
    obtain ⟨why, hrefused, rfl⟩ := h
    refine ⟨why, ?_, rfl⟩
    have hother := (p.launch scenario stop).build_withStop other
    rwa [hrefused] at hother

/-- The program comes to build this lifecycle in a world. -/
def Builds (w : World) (a : Arguments) (lifecycle : Lifecycle) : Prop :=
  ∃ p, prepare a w.contentOf = .ok p ∧ p.build w.stop = .ok lifecycle

/-- The program builds one lifecycle at most. -/
theorem Builds.eq {other : Lifecycle} (h : Builds w a lifecycle) (h' : Builds w a other) :
    other = lifecycle := by
  obtain ⟨p, hp, hb⟩ := h
  obtain ⟨q, hq, hb'⟩ := h'
  rw [hp] at hq
  cases hq
  rw [hb] at hb'
  cases hb'
  rfl

/-- What is built has not been started. -/
theorem Builds.isUnstarted (h : Builds w a lifecycle) : lifecycle.IsUnstarted := by
  obtain ⟨p, -, hb⟩ := h
  obtain ⟨l, plan, -, rfl⟩ := exists_plan_of_build hb
  exact l.lifecycle_isUnstarted plan

theorem Builds.stop (h : Builds w a lifecycle) : lifecycle.stop = w.stop := by
  obtain ⟨p, -, hb⟩ := h
  obtain ⟨l, plan, hstop, rfl⟩ := exists_plan_of_build hb
  exact hstop

/-- How the program ends in a world: with a fault of the input, with one of the start, or with a
report. -/
inductive Ends (w : World) (a : Arguments) : Except ProgramFault RunReport → Prop
  | unprepared {fault : ProgramFault} (h : prepare a w.contentOf = .error fault) :
    Ends w a (.error fault)
  | unbuilt {p : Program} {fault : ProgramFault} (hp : prepare a w.contentOf = .ok p)
      (h : p.build w.stop = .error fault) :
    Ends w a (.error fault)
  | unstarted {lifecycle : Lifecycle} {fault : ProgramFault} (hb : Builds w a lifecycle)
      (h : start w lifecycle = .error fault) :
    Ends w a (.error fault)
  | reported {lifecycle : Lifecycle} {r : Rehearsal} {report : RunReport}
      (hb : Builds w a lifecycle) (hs : start w lifecycle = .ok r)
      (h : (r.wait w.patience).2 = some report) :
    Ends w a (.ok report)

/-- The program has begun this rehearsal, and nobody has given the stop while its end was waited
for. -/
structure Runs (w : World) (a : Arguments) (lifecycle : Lifecycle) (r : Rehearsal) : Prop where
  builds : Builds w a lifecycle
  started : start w lifecycle = .ok r
  report : (r.wait w.patience).2 = none
  stopped : (r.wait w.patience).1.stopped = false

/-- What is built is played. -/
theorem outcome_of_builds (h : Builds w a lifecycle) : outcome w a = play w lifecycle := by
  obtain ⟨p, hp, hb⟩ := h
  simp only [outcome, hp, hb, bind, Except.bind]

theorem outcome_of_ends {e : Except ProgramFault RunReport} (h : Ends w a e) :
    outcome w a = some e := by
  cases h with
  | unprepared h => simp only [outcome, h, bind, Except.bind]
  | unbuilt hp h => simp only [outcome, hp, h, bind, Except.bind]
  | unstarted hb h => simp only [outcome_of_builds hb, play, h]
  | reported hb hs h => simp only [outcome_of_builds hb, play, hs, h, Option.map_some]

theorem outcome_of_runs {r : Rehearsal} (h : Runs w a lifecycle r) : outcome w a = none := by
  simp only [outcome_of_builds h.builds, play, h.started, h.report, Option.map_none]

/-- The program ends, or is still running when its end is waited for no longer. -/
theorem ends_or_runs (w : World) (a : Arguments) :
    (∃ e, Ends w a e) ∨ ∃ lifecycle r, Runs w a lifecycle r := by
  cases hp : prepare a w.contentOf with
  | error fault => exact .inl ⟨_, .unprepared hp⟩
  | ok p =>
    cases hbuild : p.build w.stop with
    | error fault => exact .inl ⟨_, .unbuilt hp hbuild⟩
    | ok lifecycle =>
      have hb : Builds w a lifecycle := ⟨p, hp, hbuild⟩
      cases hs : start w lifecycle with
      | error fault => exact .inl ⟨_, .unstarted hb hs⟩
      | ok r =>
        cases hr : (r.wait w.patience).2 with
        | some report => exact .inl ⟨_, .reported hb hs hr⟩
        | none =>
          have hstopped := (wait_of_start hb.isUnstarted hs w.patience).1.mp hr
          exact .inr ⟨lifecycle, r, hb, hs, hr, hstopped⟩

/-- There is an outcome just if the program ends, and it is the one the program ends with. -/
theorem outcome_eq_some_iff {e : Except ProgramFault RunReport} :
    outcome w a = some e ↔ Ends w a e := by
  refine ⟨fun h => ?_, outcome_of_ends⟩
  rcases ends_or_runs w a with ⟨other, he⟩ | ⟨lifecycle, r, hr⟩
  · rw [outcome_of_ends he] at h
    cases h
    exact he
  · rw [outcome_of_runs hr] at h
    cases h

theorem outcome_eq_none_iff : outcome w a = none ↔ ∃ lifecycle r, Runs w a lifecycle r := by
  refine ⟨fun h => ?_, fun ⟨_, _, hr⟩ => outcome_of_runs hr⟩
  rcases ends_or_runs w a with ⟨e, he⟩ | hr
  · rw [outcome_of_ends he] at h
    cases h
  · exact hr

/-- All that fails of the system itself is a signal or the network. -/
theorem outcome_ne_io (why : String) : outcome w a ≠ some (.error (.io why)) := by
  intro h
  cases outcome_eq_some_iff.mp h with
  | unprepared h => cases isConfiguration_of_prepare h
  | unbuilt _ h => cases build_isConfiguration h
  | unstarted hb h => cases (start_eq_error_iff hb.isUnstarted).mp h

/-- A program that is to play a scenario prints nothing, and its code is that of the outcome. -/
theorem rehearse_of_parse {ss : List String} (hparse : Arguments.parse ss = .ok a)
    (hplay : a.onlyPrints = false) (w : World) :
    rehearse w ss = ((outcome w a).map ExitCode.of, "") := by
  obtain ⟨hlist, hprint⟩ := Bool.or_eq_false_iff.mp hplay
  simp only [rehearse, hparse, task, hlist, hprint, Bool.false_eq_true, if_false]

/-- The exit code is two exactly when nothing was built. -/
theorem Ends.code_eq_badInput_iff {e : Except ProgramFault RunReport} (h : Ends w a e) :
    ExitCode.of e = ExitCode.badInput ↔ ∀ lifecycle, ¬Builds w a lifecycle := by
  cases h with
  | unprepared h =>
    have hconf : ProgramFault.isConfiguration _ = true := isConfiguration_of_prepare h
    simp only [ExitCode.of, hconf, if_true, true_iff]
    rintro lifecycle ⟨p, hp, -⟩
    rw [h] at hp
    cases hp
  | unbuilt hp h =>
    simp only [ExitCode.of, build_isConfiguration h, if_true, true_iff]
    rintro lifecycle ⟨q, hq, hb⟩
    rw [hp] at hq
    cases hq
    rw [h] at hb
    cases hb
  | unstarted hb h =>
    have hconf := ((start_eq_error_iff hb.isUnstarted).mp h).isConfiguration
    rw [ExitCode.of, hconf]
    exact iff_of_false (by decide) fun hnone => hnone _ hb
  | reported hb => exact iff_of_false (by decide : ExitCode.success ≠ _) fun hnone => hnone _ hb

/-- What has been built and cannot be started ends the program. -/
theorem ends_of_fails {fault : ProgramFault} (hb : Builds w a lifecycle)
    (hf : Fails w lifecycle fault) : Ends w a (.error fault) :=
  .unstarted hb ((start_eq_error_iff hb.isUnstarted).mpr hf)

/-- The exit code is one exactly when something was built and could not be started. -/
theorem Ends.code_eq_failure_iff {e : Except ProgramFault RunReport} (h : Ends w a e) :
    ExitCode.of e = ExitCode.failure ↔
      ∃ lifecycle fault, Builds w a lifecycle ∧ Fails w lifecycle fault := by
  constructor
  · intro hcode
    cases h with
    | unprepared h =>
      rw [ExitCode.of, isConfiguration_of_prepare h] at hcode
      cases hcode
    | unbuilt _ h =>
      rw [ExitCode.of, build_isConfiguration h] at hcode
      cases hcode
    | unstarted hb h => exact ⟨_, _, hb, (start_eq_error_iff hb.isUnstarted).mp h⟩
    | reported => cases hcode
  · rintro ⟨lifecycle, fault, hb, hf⟩
    have heq := outcome_of_ends h
    rw [outcome_of_ends (ends_of_fails hb hf), Option.some.injEq] at heq
    rw [← heq, ExitCode.of, hf.isConfiguration]
    rfl

theorem code_eq_iff {code : UInt8} :
    (outcome w a).map ExitCode.of = some code ↔ ∃ e, Ends w a e ∧ ExitCode.of e = code := by
  simp only [Option.map_eq_some_iff, outcome_eq_some_iff]

theorem code_eq_success_iff :
    (outcome w a).map ExitCode.of = some ExitCode.success ↔ ∃ report, Ends w a (.ok report) := by
  rw [code_eq_iff]
  constructor
  · rintro ⟨e, he, hcode⟩
    obtain ⟨report, rfl⟩ := ExitCode.of_eq_success.mp hcode
    exact ⟨report, he⟩
  · rintro ⟨report, he⟩
    exact ⟨_, he, rfl⟩

theorem code_eq_badInput_iff :
    (outcome w a).map ExitCode.of = some ExitCode.badInput ↔
      ∀ lifecycle, ¬Builds w a lifecycle := by
  rw [code_eq_iff]
  constructor
  · rintro ⟨e, he, hcode⟩
    exact he.code_eq_badInput_iff.mp hcode
  · intro hnone
    rcases ends_or_runs w a with ⟨e, he⟩ | ⟨lifecycle, r, hr⟩
    · exact ⟨e, he, he.code_eq_badInput_iff.mpr hnone⟩
    · exact absurd hr.builds (hnone lifecycle)

theorem code_eq_failure_iff :
    (outcome w a).map ExitCode.of = some ExitCode.failure ↔
      ∃ lifecycle fault, Builds w a lifecycle ∧ Fails w lifecycle fault := by
  rw [code_eq_iff]
  constructor
  · rintro ⟨e, he, hcode⟩
    exact he.code_eq_failure_iff.mp hcode
  · rintro ⟨lifecycle, fault, hb, hf⟩
    have hends : Ends w a (.error fault) := ends_of_fails hb hf
    exact ⟨_, hends, hends.code_eq_failure_iff.mpr ⟨lifecycle, fault, hb, hf⟩⟩

/-- Nothing but the arguments and the files decides whether a lifecycle is built. -/
theorem not_builds_of_contentOf {w' : World} (hfiles : w'.contentOf = w.contentOf)
    (h : ∀ lifecycle, ¬Builds w a lifecycle) (lifecycle : Lifecycle) : ¬Builds w' a lifecycle := by
  rintro ⟨p, hp, hb⟩
  rw [hfiles] at hp
  cases hb' : p.build w.stop with
  | ok other => exact h other ⟨p, hp, hb'⟩
  | error fault =>
    rw [build_error_of_stop hb' w'.stop] at hb
    cases hb

/-- What the program is told when it is to play names a scenario and two endpoints, so that settings
and scenario are all that can keep a lifecycle from being built. The exit code is two exactly when
none is built; then nothing has been bound or started, nor does anything depend on network, peer,
signals and stop. It is one exactly when what was built cannot be started, since a signal cannot be
listened for or the network fails; this leaves neither server nor loops. It is zero exactly if there
is a report. A program that has begun makes its report once the stop is given, and has no exit code
as long as nobody gives it. -/
theorem exit_codes {ss : List String} {a : Arguments} (hparse : Arguments.parse ss = .ok a)
    (hplay : a.onlyPrints = false) :
    (∃ scenario source peer, a.scenario = some scenario ∧ a.source = some source ∧
      a.peer = some peer ∧ ∀ settings stop fault,
        ({ arguments := a, settings } : Program).build stop = .error fault ↔
          ∃ why, fault = .run (.settings why) ∧
            (settings.validate = .error why ∨ settings.validate = .ok () ∧
              (ScenarioId.ofText? scenario = none ∧ why = .malformedScenario scenario ∨
                ∃ id, ScenarioId.ofText? scenario = some id ∧ (∀ p ∈ Catalog.plans, p.id ≠ id) ∧
                  why = .unknownScenario scenario))) ∧
    (∀ fault : ProgramFault,
      (ExitCode.of (.error fault : Except ProgramFault RunReport) = ExitCode.badInput ↔
        fault.OfInput) ∧
      (ExitCode.of (.error fault : Except ProgramFault RunReport) = ExitCode.failure ↔
        ¬fault.OfInput)) ∧
    ∀ w : World,
      ((∃ e, Ends w a e) ∨ ∃ lifecycle r, Runs w a lifecycle r) ∧
      (∀ e, Ends w a e → rehearse w ss = (some (ExitCode.of e), "") ∧
        (ExitCode.of e = ExitCode.success ↔ ∃ report, e = .ok report)) ∧
      (rehearse w ss = (none, "") ↔ ∃ lifecycle r, Runs w a lifecycle r) ∧
      (rehearse w ss = (some ExitCode.success, "") ↔ ∃ report, Ends w a (.ok report)) ∧
      (rehearse w ss = (some ExitCode.badInput, "") ↔ ∀ lifecycle, ¬Builds w a lifecycle) ∧
      (rehearse w ss = (some ExitCode.badInput, "") → ∀ w' : World,
        w'.contentOf = w.contentOf → rehearse w' ss = (some ExitCode.badInput, "")) ∧
      (rehearse w ss = (some ExitCode.failure, "") ↔
        ∃ lifecycle fault, Builds w a lifecycle ∧ Fails w lifecycle fault) ∧
      ∀ lifecycle, Builds w a lifecycle → lifecycle.IsUnstarted ∧
        (∀ fault, start w lifecycle = .error fault ↔ Fails w lifecycle fault) ∧
        (∀ fault, (lifecycle.start w.network 0).2 = some fault →
          ((∃ address reason, fault = .bind address reason) ∨
            ∃ reason, fault = .call (.network reason)) ∧
          (lifecycle.start w.network 0).1.server = none ∧
          (lifecycle.start w.network 0).1.loops = []) ∧
        ∀ r, start w lifecycle = .ok r →
          (w.stop.isTriggered = true ∨ w.signalled = true → ∃ report, Ends w a (.ok report)) ∧
          ∀ report, (r.wait w.patience).2 = some report → lifecycle.ReportedBy report := by
  obtain ⟨⟨scenario, hscenario⟩, ⟨source, hsource⟩, ⟨peer, hpeer⟩⟩ :=
    Arguments.present_of_parse hparse hplay
  have hcode (w : World) (code : Option UInt8) :
      rehearse w ss = (code, "") ↔ (outcome w a).map ExitCode.of = code := by
    rw [rehearse_of_parse hparse hplay]
    simp
  refine ⟨⟨scenario, source, peer, hscenario, hsource, hpeer, fun settings stop fault => ?_⟩,
    ExitCode.of_error, fun w => ⟨ends_or_runs w a, fun e he => ?_, ?_, ?_, ?_, ?_, ?_,
      fun lifecycle hb => ⟨hb.isUnstarted, fun _ => start_eq_error_iff hb.isUnstarted,
        fun fault hs => ?_, fun r hr => ?_⟩⟩⟩
  · simp only [← Catalog.lookup_eq_error_iff]
    exact build_eq_error_iff hscenario (by simp [hsource]) (by simp [hpeer]) stop fault
  · rw [hcode, outcome_of_ends he]
    exact ⟨rfl, ExitCode.of_eq_success⟩
  · rw [hcode, Option.map_eq_none_iff, outcome_eq_none_iff]
  · rw [hcode, code_eq_success_iff]
  · rw [hcode, code_eq_badInput_iff]
  · rw [hcode, code_eq_badInput_iff]
    intro hnone w' hfiles
    rw [hcode, code_eq_badInput_iff]
    exact not_builds_of_contentOf hfiles hnone
  · rw [hcode, code_eq_failure_iff]
  · obtain ⟨endpoint, table, -, hlisten⟩ := (Lifecycle.start_eq_some_iff hb.isUnstarted).mp hs
    rw [Lifecycle.start_of_fault hb.isUnstarted hs]
    refine ⟨?_, hb.isUnstarted.server, hb.isUnstarted.loops⟩
    rcases Network.listen_eq_error_iff.mp hlisten with ⟨why, -, rfl⟩ | ⟨_, why, -, -, rfl⟩
    · exact .inl ⟨_, why, rfl⟩
    · exact .inr ⟨why, rfl⟩
  · obtain ⟨-, hends, hreport⟩ := wait_of_start hb.isUnstarted hr w.patience
    refine ⟨fun hgiven => ?_, hreport⟩
    rw [← hb.stop] at hgiven
    obtain ⟨report, hmade⟩ := Option.ne_none_iff_exists'.mp (hends hgiven)
    exact ⟨report, .reported hb hr hmade⟩

/-- Told to answer heartbeats at an address. -/
def heartbeatArguments : List String :=
  ["--src-ip-address", "127.0.0.1", "--src-port", "7000", "--dst-ip-address=127.0.0.1",
    "--dst-port=7001", "--scenario", "1.1"]

def toldToAnswer : Arguments where
  sourceAddress := some "127.0.0.1"
  sourcePort := some 7000
  peerAddress := some "127.0.0.1"
  peerPort := some 7001
  scenario := some "1.1"

/-- A world in which the address is free or taken, and the program is stopped as soon as it runs. -/
def stoppedWorld (isFree : Bool) : World where
  contentOf _ := .error "No such file or directory (os error 2)"
  network := { bind := fun e =>
    if isFree then .ok e.port else .error "Address already in use (os error 98)" }
  signalled := true
  patience := 0

/-- The program is built there, whether its address is free or taken. -/
theorem builds_stoppedWorld (isFree : Bool) :
    ∃ lifecycle table, lifecycle.listen = some (⟨"127.0.0.1", 7000⟩, table) ∧
      Builds (stoppedWorld isFree) toldToAnswer lifecycle := by
  let l : Launch := { scenario := "1.1", listen := some ⟨"127.0.0.1", 7000⟩, hasPeer := true }
  have hmeets : l.Meets Catalog.plans[0] := by
    constructor
    · constructor <;> decide
    all_goals decide
  refine ⟨l.lifecycle Catalog.plans[0], _, rfl, ⟨{ arguments := toldToAnswer }, rfl, ?_⟩⟩
  rw [build_of_scenario rfl]
  exact congrArg (Except.mapError _) (Launch.build_of_meets hmeets)

/-- The same arguments come to a failure or to a report, as the network will have it. -/
theorem rehearse_takenAddress :
    Arguments.parse heartbeatArguments = .ok toldToAnswer ∧ toldToAnswer.onlyPrints = false ∧
      rehearse (stoppedWorld false) heartbeatArguments = (some ExitCode.failure, "") ∧
      rehearse (stoppedWorld true) heartbeatArguments = (some ExitCode.success, "") := by
  have hparse : Arguments.parse heartbeatArguments = .ok toldToAnswer := by decide +kernel
  obtain ⟨-, -, hworld⟩ := exit_codes hparse rfl
  refine ⟨hparse, rfl, ?_, ?_⟩
  · obtain ⟨lifecycle, table, hl, hb⟩ := builds_stoppedWorld false
    obtain ⟨-, -, -, -, -, -, hfailure, -⟩ := hworld (stoppedWorld false)
    exact hfailure.mpr ⟨lifecycle, _, hb, .bind (fun _ => rfl) hl rfl⟩
  · obtain ⟨lifecycle, table, hl, hb⟩ := builds_stoppedWorld true
    obtain ⟨-, -, -, hsuccess, -, -, -, hbegun⟩ := hworld (stoppedWorld true)
    obtain ⟨-, hfails, -, hends⟩ := hbegun lifecycle hb
    cases hs : start (stoppedWorld true) lifecycle with
    | error fault => cases (hfails fault).mp hs <;> contradiction
    | ok r => exact hsuccess.mpr ((hends r hs).1 (.inr rfl))

end Program
end ScriptedPeer
