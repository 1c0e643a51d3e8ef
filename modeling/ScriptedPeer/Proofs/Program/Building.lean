import Mathlib.Data.List.Basic
import ScriptedPeer.Program.Fault
import ScriptedPeer.Launch
import ScriptedPeer.Proofs.Reply.Independent
import ScriptedPeer.Proofs.Scenario.Lookup

/-!
# What a launch is refused for

A launch is built when the settings can be played with, the scenario is in the catalog, and what
the plan needs is there: an endpoint to listen on if it answers, and a peer if it calls. Otherwise
the first of these conditions that it does not meet is its fault. Either way nothing is bound or
started. What is built has no zero in it that could keep a ticker from running or a policy from
acting.
-/

namespace ScriptedPeer

namespace Settings

/-- A character of the identity can be seen, and no number is zero. -/
structure Playable (s : Settings) : Prop where
  identity : Text.trim s.identity.toList ≠ []
  replyLimit : s.replyLimit ≠ 0
  requestBound : s.requestBound ≠ 0
  greetAttempts : s.greetAttempts ≠ 0
  tellEvery : s.tellEvery ≠ 0
  narrateLength : s.narrateLength ≠ 0
  requestInterval : s.requestInterval ≠ 0
  callTimeout : s.callTimeout ≠ 0
  drainTimeout : s.drainTimeout ≠ 0

variable {s : Settings} {fault : SettingsFault}

/-- Settings can be played if the identity has something in it and no number is zero. -/
theorem playable_iff :
    s.Playable ↔ Text.trim s.identity.toList ≠ [] ∧ ∀ n ∈ s.numbers, n.2 ≠ 0 := by
  have hword (n : UInt32) : n.toNat ≠ 0 ↔ n ≠ 0 := by
    rw [Ne, Ne, ← UInt32.toNat_inj, UInt32.toNat_zero]
  have hlong (n : UInt64) : n.toNat ≠ 0 ↔ n ≠ 0 := by
    rw [Ne, Ne, ← UInt64.toNat_inj, UInt64.toNat_zero]
  simp only [numbers, List.forall_mem_cons, List.not_mem_nil, hword, hlong]
  constructor
  · rintro ⟨h, h₁, h₂, h₃, h₄, h₅, h₆, h₇, h₈⟩
    exact ⟨h, h₁, h₂, h₃, h₄, h₅, h₆, h₇, h₈, nofun⟩
  · rintro ⟨h, h₁, h₂, h₃, h₄, h₅, h₆, h₇, h₈, -⟩
    exact ⟨h, h₁, h₂, h₃, h₄, h₅, h₆, h₇, h₈⟩

/-- The identity is looked at before any number. -/
theorem validate_of_blank (h : Text.trim s.identity.toList = []) :
    s.validate = .error (.invalid "Identity must not be empty") := by
  rw [validate, if_pos h]

/-- The fault names the first number that is zero. -/
theorem validate_of_zero (h : Text.trim s.identity.toList ≠ []) {before after : List (String × Nat)}
    {name : String} (hn : s.numbers = before ++ (name, 0) :: after)
    (hbefore : ∀ n ∈ before, n.2 ≠ 0) :
    s.validate = .error (.invalid (name ++ " must be greater than 0")) := by
  have hfind : s.numbers.find? (·.2 = 0) = some (name, 0) := by
    rw [List.find?_eq_some_iff_append]
    exact ⟨rfl, before, after, hn, fun n hmem => by simpa using hbefore n hmem⟩
  rw [validate, if_neg h, hfind]

theorem validate_of_playable (h : s.Playable) : s.validate = .ok () := by
  obtain ⟨hid, hn⟩ := playable_iff.mp h
  have hfind : s.numbers.find? (·.2 = 0) = none := by
    rw [List.find?_eq_none]
    exact fun n hmem => by simpa using hn n hmem
  rw [validate, if_neg hid, hfind]

/-- The first number that is zero, when there is one. -/
theorem exists_first_zero (h : ¬∀ n ∈ s.numbers, n.2 ≠ 0) :
    ∃ before name after, s.numbers = before ++ (name, 0) :: after ∧ ∀ n ∈ before, n.2 ≠ 0 := by
  cases hfind : s.numbers.find? (·.2 = 0) with
  | none =>
    exact absurd (fun n hmem => by simpa using List.find?_eq_none.mp hfind n hmem) h
  | some found =>
    obtain ⟨hzero, before, after, hn, hbefore⟩ := List.find?_eq_some_iff_append.mp hfind
    obtain ⟨name, value⟩ := found
    have hvalue : value = 0 := of_decide_eq_true hzero
    subst hvalue
    exact ⟨before, name, after, hn, fun n hmem => by simpa using hbefore n hmem⟩

end Settings

/-- No number in the handler is zero. -/
structure Handler.Nonzero (h : Handler) : Prop where
  limit : ∀ counter, h.policy = .countThenStop counter → counter.limit ≠ 0
  period : ∀ hook, h.hook = some hook → hook.period ≠ 0
  narrateLength : h.profile.narrateLength ≠ 0

/-- No number in the loop is zero. -/
structure RequestLoop.Nonzero (l : RequestLoop) : Prop where
  interval : ∀ ticker, l.cadence.ticker? = some ticker → ticker.interval ≠ 0
  limit : ∀ ticker counter untilFirstReply atBound,
    l.cadence = .bounded ticker counter untilFirstReply atBound → counter.limit ≠ 0
  narrateLength : l.profile.narrateLength ≠ 0

/-- Nothing has been bound, no loop is running, and no shutdown has begun. -/
structure Lifecycle.IsUnstarted (l : Lifecycle) : Prop where
  state : l.state = .starting
  server : l.server = none
  loops : l.loops = []
  report : l.report = none
  awaitsServer : l.awaitsServer = true
  awaitsLoops : l.awaitsLoops = true

/-- To share triggers changes nothing of a loop but where its triggers come from. -/
theorem RequestLoop.mem_shareTriggers {source : TriggerSource} {loops : List RequestLoop}
    {l : RequestLoop} (h : l ∈ shareTriggers source loops) :
    ∃ r ∈ loops, l = r ∨ ∃ source, l = { r with cadence := .onTrigger source } := by
  induction loops generalizing source with
  | nil => cases h
  | cons r rest ih =>
    rw [shareTriggers] at h
    split at h <;> rcases List.mem_cons.mp h with rfl | h
    · exact ⟨r, List.mem_cons_self, .inr ⟨_, rfl⟩⟩
    · obtain ⟨q, hq, heq⟩ := ih h
      exact ⟨q, List.mem_cons_of_mem r hq, heq⟩
    · exact ⟨_, List.mem_cons_self, .inl rfl⟩
    · obtain ⟨q, hq, heq⟩ := ih h
      exact ⟨q, List.mem_cons_of_mem r hq, heq⟩

theorem RequestLoop.Nonzero.onTrigger {l : RequestLoop} (h : l.Nonzero) (source : TriggerSource) :
    ({ l with cadence := .onTrigger source } : RequestLoop).Nonzero :=
  ⟨nofun, nofun, h.narrateLength⟩

/-- Every handler of a table is one of those it was made of. -/
theorem ServiceTable.mem_of_get?_ofHandlers {hs : List Handler} {m : Method} {h : Handler}
    (hget : (ofHandlers hs).get? m = some h) : h ∈ hs := by
  rw [ofHandlers, Roster.get?_foldl_register] at hget
  cases hn : Roster.placeIn m hs with
  | some n =>
    rw [hn] at hget
    exact List.mem_of_getElem? hget
  | none =>
    rw [hn] at hget
    simp [ServiceTable.get?, ServiceTable.empty] at hget

namespace Plan

variable {s : Settings} {address : Endpoint}

theorem narrateLength_profile (h : s.Playable) :
    (Profile.ofSettings s address).narrateLength ≠ 0 := by
  intro hzero
  exact h.narrateLength (UInt32.toNat_inj.mp hzero)

/-- A handler of a plan takes its limit and its period from the settings. -/
theorem nonzero_handler (h : s.Playable) (r : ReplyPlan) :
    (handler s (.ofSettings s address) r).Nonzero where
  limit counter hp := by
    obtain ⟨m, rule, echo⟩ := r
    cases rule with
    | always | bySequence _ _ => cases hp
    | countThenStop =>
      cases hp
      exact h.replyLimit
  period hook hh := by
    simp only [handler] at hh
    split at hh
    · cases hh
      have hpos : 1 ≤ max s.tellEvery.toNat 1 := Nat.le_max_right _ _
      exact Nat.ne_of_gt hpos
    · cases hh
  narrateLength := narrateLength_profile h

theorem nonzero_loop (h : s.Playable) (r : RequestPlan) :
    (loop s (.ofSettings s address) r).Nonzero := by
  have hinterval : s.requestInterval.toNat ≠ 0 := fun hzero =>
    h.requestInterval (UInt64.toNat_inj.mp hzero)
  have hbound (b : BoundSetting) : bound s b ≠ 0 := by
    cases b with
    | requestBound => exact h.requestBound
    | greetAttempts => exact h.greetAttempts
  obtain ⟨m, rhythm⟩ := r
  refine ⟨fun ticker ht => ?_, fun ticker counter u a hc => ?_, narrateLength_profile h⟩
  · cases rhythm with
    | periodic | bounded _ _ _ =>
      cases ht
      exact hinterval
    | single | echo => cases ht
  · cases rhythm with
    | bounded b _ _ =>
      cases hc
      exact hbound b
    | periodic | single | echo => cases hc

theorem nonzero_of_mem_loops (h : s.Playable) (p : Plan) {source : TriggerSource} {l : RequestLoop}
    (hl : l ∈ RequestLoop.shareTriggers source (p.requests.map (loop s (.ofSettings s address)))) :
    l.Nonzero := by
  obtain ⟨r, hr, heq⟩ := RequestLoop.mem_shareTriggers hl
  obtain ⟨q, -, rfl⟩ := List.mem_map.mp hr
  rcases heq with rfl | ⟨source, rfl⟩
  · exact nonzero_loop h q
  · exact (nonzero_loop h q).onTrigger source

theorem nonzero_of_get? (h : s.Playable) (p : Plan) {m : Method} {g : Handler}
    (hg : (ServiceTable.ofHandlers
      (p.replies.map (handler s (.ofSettings s address)))).get? m = some g) : g.Nonzero := by
  obtain ⟨r, -, rfl⟩ := List.mem_map.mp (ServiceTable.mem_of_get?_ofHandlers hg)
  exact nonzero_handler h r

theorem serves_iff (p : Plan) : p.serves = true ↔ p.replies ≠ [] := by
  simp [serves]

theorem calls_iff (p : Plan) : p.calls = true ↔ p.requests ≠ [] := by
  simp [calls]

end Plan

namespace Launch

/-- The launch names this plan, and everything the plan needs is there. -/
structure Meets (l : Launch) (p : Plan) : Prop where
  settings : l.settings.Playable
  listed : p ∈ Catalog.plans
  spelled : ScenarioId.ofText? l.scenario = some p.id
  listen : p.replies ≠ [] → l.listen ≠ none
  peer : p.requests ≠ [] → l.hasPeer = true

/-- The fault of the first condition that the launch does not meet, in the order in which they are
looked at. -/
inductive RefusedFor (l : Launch) : RunFault → Prop
  | identity (h : Text.trim l.settings.identity.toList = []) :
    RefusedFor l (.invalid "Identity must not be empty")
  | number (hid : Text.trim l.settings.identity.toList ≠ []) {before after : List (String × Nat)}
      {name : String} (hn : l.settings.numbers = before ++ (name, 0) :: after)
      (hbefore : ∀ n ∈ before, n.2 ≠ 0) :
    RefusedFor l (.invalid (name ++ " must be greater than 0"))
  | malformed (hs : l.settings.Playable) (h : ScenarioId.ofText? l.scenario = none) :
    RefusedFor l (.settings (.malformedScenario l.scenario))
  | unknown (hs : l.settings.Playable) {id : ScenarioId}
      (hid : ScenarioId.ofText? l.scenario = some id) (h : ∀ p ∈ Catalog.plans, p.id ≠ id) :
    RefusedFor l (.settings (.unknownScenario l.scenario))
  | listen (hs : l.settings.Playable) {p : Plan} (hp : p ∈ Catalog.plans)
      (hid : ScenarioId.ofText? l.scenario = some p.id) (hserves : p.replies ≠ [])
      (h : l.listen = none) :
    RefusedFor l (.invalid s!"Scenario {p.id.text} serves calls and needs a listen address")
  | peer (hs : l.settings.Playable) {p : Plan} (hp : p ∈ Catalog.plans)
      (hid : ScenarioId.ofText? l.scenario = some p.id) (hlisten : p.replies ≠ [] → l.listen ≠ none)
      (hcalls : p.requests ≠ []) (h : l.hasPeer = false) :
    RefusedFor l (.invalid s!"Scenario {p.id.text} sends requests but no peer is configured")

def profile (l : Launch) : Profile := .ofSettings l.settings (l.listen.getD anyEndpoint)

/-- What is built for a plan. -/
def lifecycle (l : Launch) (p : Plan) : Lifecycle where
  scenario := p.id.text
  stop := l.stop
  drain := l.settings.drainTimeout.toNat
  listen :=
    if p.serves then
      l.listen.map fun endpoint =>
        (endpoint, .ofHandlers (p.replies.map (Plan.handler l.settings l.profile)))
    else none
  pending := RequestLoop.shareTriggers .shared (p.requests.map (Plan.loop l.settings l.profile))

variable {l : Launch} {p : Plan} {fault : RunFault} {built : Lifecycle}

theorem build_of_invalid {why : SettingsFault} (h : l.settings.validate = .error why) :
    l.build = .error (.settings why) := by
  simp only [build, h, ofSettings, bind, Except.bind]

theorem build_of_lost {why : SettingsFault} (hs : l.settings.validate = .ok ())
    (h : Catalog.lookup l.scenario = .error why) : l.build = .error (.settings why) := by
  simp only [build, hs, h, ofSettings, bind, Except.bind]

/-- Once the scenario has been found, only an endpoint and a peer can be missing. -/
theorem build_of_found (hs : l.settings.validate = .ok ()) (h : Catalog.lookup l.scenario = .ok p) :
    l.build =
      if p.serves && l.listen.isNone then
        .error (.invalid s!"Scenario {p.id.text} serves calls and needs a listen address")
      else if p.calls && !l.hasPeer then
        .error (.invalid s!"Scenario {p.id.text} sends requests but no peer is configured")
      else .ok (l.lifecycle p) := by
  simp only [build, hs, h, ofSettings, bind, Except.bind, checkListen, Plan.wire]
  cases hserves : p.serves && l.listen.isNone with
  | true => rfl
  | false =>
    cases hcalls : p.calls && !l.hasPeer with
    | true => rfl
    | false =>
      simp only [Bool.false_eq_true, if_false, pure, Except.pure, lifecycle, profile]
      cases p.serves <;> cases l.listen <;> rfl

theorem lacksEndpoint_eq_false :
    (p.serves && l.listen.isNone) = false ↔ (p.replies ≠ [] → l.listen ≠ none) := by
  rw [← p.serves_iff]
  cases p.serves <;> cases l.listen <;> simp

theorem lacksPeer_eq_false :
    (p.calls && !l.hasPeer) = false ↔ (p.requests ≠ [] → l.hasPeer = true) := by
  rw [← p.calls_iff]
  cases p.calls <;> simp

/-- What meets the conditions is built as planned. -/
theorem build_of_meets (h : l.Meets p) : l.build = .ok (l.lifecycle p) := by
  rw [build_of_found (Settings.validate_of_playable h.settings)
    (Catalog.lookup_eq_ok_iff.mpr ⟨h.listed, h.spelled⟩), lacksEndpoint_eq_false.mpr h.listen,
    lacksPeer_eq_false.mpr h.peer]
  rfl

theorem build_of_refusedFor (h : l.RefusedFor fault) : l.build = .error fault := by
  cases h with
  | identity h => exact build_of_invalid (Settings.validate_of_blank h)
  | number hid hn hbefore => exact build_of_invalid (Settings.validate_of_zero hid hn hbefore)
  | malformed hs h =>
    exact build_of_lost (Settings.validate_of_playable hs)
      (Catalog.lookup_eq_error_iff.mpr (.inl ⟨h, rfl⟩))
  | unknown hs hid h =>
    exact build_of_lost (Settings.validate_of_playable hs)
      (Catalog.lookup_eq_error_iff.mpr (.inr ⟨_, hid, h, rfl⟩))
  | listen hs hp hid hserves h =>
    rw [build_of_found (Settings.validate_of_playable hs)
      (Catalog.lookup_eq_ok_iff.mpr ⟨hp, hid⟩), h, (Plan.serves_iff _).mpr hserves]
    rfl
  | peer hs hp hid hlisten hcalls h =>
    rw [build_of_found (Settings.validate_of_playable hs) (Catalog.lookup_eq_ok_iff.mpr ⟨hp, hid⟩),
      lacksEndpoint_eq_false.mpr hlisten, h, (Plan.calls_iff _).mpr hcalls]
    rfl

/-- The conditions are looked at one after the other, up to the first that is not met. -/
theorem meets_or_refusedFor (l : Launch) :
    (∃ p, l.Meets p) ∨ ∃ fault, l.RefusedFor fault := by
  by_cases hid : Text.trim l.settings.identity.toList = []
  · exact .inr ⟨_, .identity hid⟩
  by_cases hn : ∀ n ∈ l.settings.numbers, n.2 ≠ 0
  · have hs := Settings.playable_iff.mpr ⟨hid, hn⟩
    cases hspelled : ScenarioId.ofText? l.scenario with
    | none => exact .inr ⟨_, .malformed hs hspelled⟩
    | some id =>
      by_cases hnone : ∀ p ∈ Catalog.plans, p.id ≠ id
      · exact .inr ⟨_, .unknown hs hspelled hnone⟩
      · obtain ⟨p, hp, rfl⟩ : ∃ p ∈ Catalog.plans, p.id = id := by simpa using hnone
        by_cases hlisten : p.replies ≠ [] → l.listen ≠ none
        · by_cases hpeer : p.requests ≠ [] → l.hasPeer = true
          · exact .inl ⟨p, hs, hp, hspelled, hlisten, hpeer⟩
          · obtain ⟨hcalls, hnone⟩ := Classical.not_imp.mp hpeer
            exact .inr ⟨_, .peer hs hp hspelled hlisten hcalls (Bool.eq_false_iff.mpr hnone)⟩
        · obtain ⟨hserves, hnone⟩ := Classical.not_imp.mp hlisten
          exact .inr ⟨_, .listen hs hp hspelled hserves (Classical.not_not.mp hnone)⟩
  · obtain ⟨before, name, after, hfirst, hbefore⟩ := Settings.exists_first_zero hn
    exact .inr ⟨_, .number hid hfirst hbefore⟩

/-- Only what meets the conditions is built. -/
theorem build_eq_ok_iff : l.build = .ok built ↔ ∃ p, l.Meets p ∧ built = l.lifecycle p := by
  constructor
  · intro h
    rcases l.meets_or_refusedFor with ⟨p, hp⟩ | ⟨fault, hf⟩
    · rw [build_of_meets hp] at h
      cases h
      exact ⟨p, hp, rfl⟩
    · rw [build_of_refusedFor hf] at h
      cases h
  · rintro ⟨p, hp, rfl⟩
    exact build_of_meets hp

/-- Whatever is refused is refused for a condition that is not met. -/
theorem build_eq_error_iff : l.build = .error fault ↔ l.RefusedFor fault := by
  refine ⟨fun h => ?_, build_of_refusedFor⟩
  rcases l.meets_or_refusedFor with ⟨p, hp⟩ | ⟨other, hf⟩
  · rw [build_of_meets hp] at h
    cases h
  · rw [build_of_refusedFor hf] at h
    cases h
    exact hf

theorem RefusedFor.isConfiguration (h : l.RefusedFor fault) : fault.isConfiguration = true := by
  cases h <;> rfl

/-- The stop is handed on as it is, and nothing depends on it. -/
theorem build_withStop (l : Launch) (stop : StopSignal) :
    ({ l with stop } : Launch).build = l.build.map fun built => { built with stop } := by
  have hcheck : ({ l with stop } : Launch).checkListen = l.checkListen := rfl
  simp only [build, hcheck, bind, Except.bind]
  cases ofSettings l.settings.validate with
  | error fault => rfl
  | ok _ =>
    cases ofSettings (Catalog.lookup l.scenario) with
    | error fault => rfl
    | ok plan =>
      simp only
      cases l.checkListen plan with
      | error fault => rfl
      | ok _ =>
        simp only
        cases plan.wire l.settings (.ofSettings l.settings (l.listen.getD anyEndpoint))
          l.hasPeer <;> rfl

theorem lifecycle_isUnstarted (l : Launch) (p : Plan) : (l.lifecycle p).IsUnstarted :=
  ⟨rfl, rfl, rfl, rfl, rfl, rfl⟩

/-- A lifecycle listens where it was told to, and serves the handlers of its plan there. -/
theorem listen_of_lifecycle {endpoint : Endpoint} {table : ServiceTable}
    (h : (l.lifecycle p).listen = some (endpoint, table)) :
    l.listen = some endpoint ∧
      table = .ofHandlers (p.replies.map (Plan.handler l.settings l.profile)) := by
  simp only [lifecycle] at h
  split at h
  · obtain ⟨e, he, heq⟩ := Option.map_eq_some_iff.mp h
    cases heq
    exact ⟨he, rfl⟩
  · cases h

/-- It listens just if its plan has replies to give. -/
theorem Meets.listen_iff (h : l.Meets p) : (l.lifecycle p).listen ≠ none ↔ p.replies ≠ [] := by
  rw [← p.serves_iff, lifecycle]
  cases hs : p.serves with
  | false => simp
  | true => simpa using h.listen (p.serves_iff.mp hs)

/-- A launch is built exactly if its settings can be played with, its scenario is in the catalog,
and there are an endpoint to listen on and somebody to call where the plan has need of them;
otherwise the first of these that is not so is its fault, and the input is to blame. The stop is
handed on untouched, and nothing has been started. What is built listens just if the plan answers,
its loops and handlers are those of the requests and the replies of the plan, and no interval, limit,
period or length in them is zero. -/
theorem build_spec {Client : Type} (scenario : String) (settings : Settings)
    (listen peer : Option Endpoint) (client : Option Client) (stop : StopSignal) :
    let l : Launch :=
      { scenario, settings, listen, hasPeer := client.isSome || peer.isSome, stop }
    ((∃ built, l.build = .ok built) ↔
      settings.Playable ∧ ∃ p ∈ Catalog.plans, ScenarioId.ofText? scenario = some p.id ∧
        (p.replies ≠ [] → listen ≠ none) ∧ (p.requests ≠ [] → client ≠ none ∨ peer ≠ none)) ∧
    (∀ fault, l.build = .error fault ↔ l.RefusedFor fault) ∧
    (∀ fault, l.build = .error fault → fault.isConfiguration = true ∧
      ExitCode.of (.error (.run fault) : Except ProgramFault RunReport) = ExitCode.badInput) ∧
    (∀ other, ({ l with stop := other } : Launch).build =
      l.build.map fun built => { built with stop := other }) ∧
    ∀ built, l.build = .ok built →
      built.stop = stop ∧ built.IsUnstarted ∧
      (∃ p ∈ Catalog.plans, ScenarioId.ofText? scenario = some p.id ∧
        (built.listen ≠ none ↔ p.replies ≠ []) ∧
        built.pending =
          RequestLoop.shareTriggers .shared (p.requests.map (Plan.loop settings l.profile)) ∧
        ∀ endpoint table, built.listen = some (endpoint, table) →
          table = .ofHandlers (p.replies.map (Plan.handler settings l.profile))) ∧
      (∀ r ∈ built.pending, r.Nonzero) ∧
      ∀ endpoint table, built.listen = some (endpoint, table) →
        listen = some endpoint ∧ ∀ m h, table.get? m = some h → h.Nonzero := by
  intro l
  have hpeer : l.hasPeer = true ↔ client ≠ none ∨ peer ≠ none := by
    simp only [l, Bool.or_eq_true, Option.isSome_iff_ne_none]
  have hfault (fault : RunFault) (h : l.build = .error fault) : fault.isConfiguration = true :=
    (build_eq_error_iff.mp h).isConfiguration
  refine ⟨⟨?_, ?_⟩, fun fault => build_eq_error_iff, fun fault h => ⟨hfault fault h, ?_⟩,
    build_withStop l, fun built h => ?_⟩
  · rintro ⟨built, h⟩
    obtain ⟨p, hp, -⟩ := build_eq_ok_iff.mp h
    exact ⟨hp.settings, p, hp.listed, hp.spelled, hp.listen, fun hc => hpeer.mp (hp.peer hc)⟩
  · rintro ⟨hs, p, hmem, hspelled, hlisten, hcalls⟩
    have hp : l.Meets p := ⟨hs, hmem, hspelled, hlisten, fun hc => hpeer.mpr (hcalls hc)⟩
    exact ⟨_, build_of_meets hp⟩
  · simp only [ExitCode.of, ProgramFault.isConfiguration, hfault fault h, if_true]
  · obtain ⟨p, hp, rfl⟩ := build_eq_ok_iff.mp h
    refine ⟨rfl, l.lifecycle_isUnstarted p, ⟨p, hp.listed, hp.spelled, hp.listen_iff, rfl,
      fun _ _ ht => (listen_of_lifecycle ht).2⟩,
      fun r hr => Plan.nonzero_of_mem_loops hp.settings p hr, fun endpoint table ht => ?_⟩
    obtain ⟨he, rfl⟩ := listen_of_lifecycle ht
    exact ⟨he, fun m g hg => Plan.nonzero_of_get? hp.settings p hg⟩

/-- Echoes Tells, with a peer to call and the settings as they are by default. -/
def echoing : Launch where
  scenario := " 6.01 "
  listen := some ⟨"127.0.0.1", 7000⟩
  hasPeer := true

/-- What is built has a loop that waits for triggers and a handler that raises them, and neither has
a zero in it. With two zeros in the settings the first of them is the fault. -/
theorem build_echoing :
    (∃ built table r h, echoing.build = .ok built ∧ built.IsUnstarted ∧
      built.listen = some (⟨"127.0.0.1", 7000⟩, table) ∧
      r ∈ built.pending ∧ r.method = .tell ∧ r.usesTrigger = true ∧ r.Nonzero ∧
      table.get? .tell = some h ∧ h.hook.isSome = true ∧ h.Nonzero) ∧
    ({ echoing with settings := { tellEvery := 0, drainTimeout := 0 } } : Launch).RefusedFor
      (.invalid "tell_every_nth_received must be greater than 0") := by
  have hplayable : ({} : Settings).Playable := by constructor <;> decide
  obtain ⟨hok, -, -, -, hbuilt⟩ := @build_spec Unit " 6.01 " {}
    (some ⟨"127.0.0.1", 7000⟩) none (some ()) {}
  obtain ⟨-, herror, -⟩ := @build_spec Unit " 6.01 " { tellEvery := 0, drainTimeout := 0 }
    (some ⟨"127.0.0.1", 7000⟩) none (some ()) {}
  constructor
  · obtain ⟨built, hb⟩ := hok.mpr ⟨hplayable, Catalog.plans[12], by decide, by decide, nofun,
      fun _ => .inl nofun⟩
    obtain ⟨-, hnew, ⟨p, hp, hid, hlisten, hpending, htable⟩, hloops, hhandlers⟩ := hbuilt built hb
    have hplan : ∀ q ∈ Catalog.plans, ScenarioId.ofText? " 6.01 " = some q.id →
        q.replies = [⟨.tell, .always, true⟩] ∧ q.requests = [⟨.tell, .echo⟩] := by
      decide
    obtain ⟨hreplies, hrequests⟩ := hplan p hp hid
    obtain ⟨⟨endpoint, table⟩, hat⟩ :=
      Option.ne_none_iff_exists'.mp (hlisten.mpr (by rw [hreplies]; nofun))
    obtain ⟨he, hnonzero⟩ := hhandlers endpoint table hat
    cases he
    rw [hrequests] at hpending
    have hr : Plan.loop {} echoing.profile ⟨.tell, .echo⟩ ∈ built.pending := by
      rw [hpending]
      exact List.mem_cons_self
    have hh : table.get? .tell = some (Plan.handler {} echoing.profile ⟨.tell, .always, true⟩) := by
      rw [htable _ _ hat, hreplies]
      rfl
    exact ⟨built, table, _, _, hb, hnew, hat, hr, rfl, rfl, hloops _ hr, hh, rfl, hnonzero _ _ hh⟩
  · exact (herror _).mp (by decide)

end Launch
end ScriptedPeer
