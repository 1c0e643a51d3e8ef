import Mathlib.Data.List.Induction
import ScriptedPeer.Lifecycle

/-!
# Starting again

A start that cannot listen at its endpoint starts nothing, but the endpoint and the table are gone
with it. A later start has nothing to bind any more, and takes the lifecycle to running without a
server. Whether a lifecycle that was to listen has a server is settled by its first start.
-/

namespace ScriptedPeer.Lifecycle

/-- A lifecycle that is to listen and has not been started. -/
structure IsNew (l : Lifecycle) (endpoint : Endpoint) (table : ServiceTable) : Prop where
  state : l.state = .starting
  listen : l.listen = some (endpoint, table)
  server : l.server = none
  loops : l.loops = []

/-- What is done with a lifecycle. Each start finds a network of its own. -/
inductive Operation where
  | start (network : Network) (now : Nat)
  | run (network : Network) (now : Nat)
  | stop (reason : StopReason)

namespace Operation

def network? : Operation → Option Network
  | start network _ | run network _ => some network
  | stop _ => none

/-- The network that the first start finds. -/
def first? (ops : List Operation) : Option Network := ops.findSome? network?

end Operation

/-- A start and then, when that has succeeded, a wait. There is no report as long as nobody gives
the stop. -/
def startAndWait (l : Lifecycle) (network : Network) (now : Nat) :
    Lifecycle × Except RunFault (Option RunReport) :=
  match l.start network now with
  | (l, some fault) => (l, .error fault)
  | (l, none) => match l.waitForStop now with
    | some (report, l, _) => (l, .ok (some report))
    | none => (l, .ok none)

def apply (l : Lifecycle) : Operation → Lifecycle
  | .start network now => (l.start network now).1
  | .run network now => (l.startAndWait network now).1
  | .stop reason => { l with stop := l.stop.trigger reason }

def operate (l : Lifecycle) (ops : List Operation) : Lifecycle := ops.foldl apply l

variable {l : Lifecycle} {endpoint : Endpoint} {table : ServiceTable} {network : Network}

/-- An endpoint that cannot be listened at is forgotten, and nothing is started. -/
theorem start_of_error (hl : l.IsNew endpoint table) {fault : RunFault}
    (hb : network.listen endpoint = .error fault) (now : Nat) :
    l.start network now = ({ l with listen := none }, some fault) := by
  simp only [start, hl.state, hl.listen, hb]

/-- An endpoint that can be listened at is served there, and the loops are started. -/
theorem start_of_ok (hl : l.IsNew endpoint table) {port : UInt16}
    (hb : network.listen endpoint = .ok port) (now : Nat) :
    l.start network now =
      ({ l with
          listen := none
          server :=
            some { endpoint := endpoint.withPort port, table, broken := l.broken } }.launch now,
        none) := by
  simp only [start, hl.state, hl.listen, hb]

/-- Without an endpoint a start binds nothing and succeeds. -/
theorem start_of_no_listen (hs : l.state = .starting) (hl : l.listen = none) (network : Network)
    (now : Nat) : l.start network now = (l.launch now, none) := by
  simp only [start, hs, hl]

theorem start_of_started (hs : l.state ≠ .starting) (network : Network) (now : Nat) :
    l.start network now = (l, none) := by
  cases h : l.state with
  | starting => exact absurd h hs
  | running | stopping | stopped => simp only [start, h]

/-- A shutdown stops the lifecycle and leaves the endpoints as they are. -/
theorem shutdown_frame (l : Lifecycle) (reason : StopReason) (now : Nat) :
    let done := (l.shutdown reason now).1
    done.state = .stopped ∧ done.listen = l.listen ∧ done.localEndpoint = l.localEndpoint := by
  refine ⟨rfl, rfl, ?_⟩
  simp only [shutdown, endShutdown, drainTasks, beginShutdown, awaitedServer, localEndpoint]
  cases hs : l.server with
  | none => rfl
  | some s =>
    cases l.awaitsServer with
    | false => rfl
    | true =>
      simp only [Option.filter_some, if_true, Option.map_some, Course.outcome, serverCourse]
      split <;> rfl

/-- A wait that returns has either found a report or shut the lifecycle down. -/
theorem waitForStop_cases {l l' : Lifecycle} {now time : Nat} {report : RunReport}
    (h : l.waitForStop now = some (report, l', time)) :
    l' = l ∨ ∃ reason, l' = (l.shutdown reason now).1 := by
  unfold waitForStop at h
  split at h
  · cases h
    exact .inl rfl
  · cases h
  · next reason _ _ =>
    obtain ⟨_, -, heq⟩ := Option.map_eq_some_iff.mp h
    cases heq
    exact .inr ⟨reason, rfl⟩

/-- Whatever is done is a start, which a shutdown may follow, or gives the stop. -/
theorem apply_cases (l : Lifecycle) (op : Operation) :
    (∃ network now, op.network? = some network ∧
      (l.apply op = (l.start network now).1 ∨
        ∃ reason, l.apply op = ((l.start network now).1.shutdown reason now).1)) ∨
    op.network? = none ∧ ∃ stop, l.apply op = { l with stop } := by
  cases op with
  | start network now => exact .inl ⟨network, now, rfl, .inl rfl⟩
  | stop reason => exact .inr ⟨rfl, _, rfl⟩
  | run network now =>
    refine .inl ⟨network, now, rfl, ?_⟩
    simp only [apply, startAndWait]
    cases l.start network now with
    | mk started fault =>
      cases fault with
      | some fault => exact .inl rfl
      | none =>
        cases hw : started.waitForStop now with
        | none => exact .inl (by simp only [hw])
        | some done =>
          obtain ⟨report, l', time⟩ := done
          simp only [hw]
          exact waitForStop_cases hw

/-- A lifecycle that listens, or has listened, at an endpoint. -/
def HasServed (l : Lifecycle) (endpoint : Endpoint) : Prop :=
  l.state ≠ .starting ∧ l.localEndpoint = some endpoint

/-- A lifecycle that does not listen, and never will. -/
def IsUnserved (l : Lifecycle) : Prop := l.listen = none ∧ l.localEndpoint = none

theorem HasServed.shutdown (h : l.HasServed endpoint) (reason : StopReason) (now : Nat) :
    (l.shutdown reason now).1.HasServed endpoint := by
  obtain ⟨hstate, -, hlocal⟩ := l.shutdown_frame reason now
  exact ⟨by rw [hstate]; nofun, by rw [hlocal, h.2]⟩

theorem IsUnserved.shutdown (h : l.IsUnserved) (reason : StopReason) (now : Nat) :
    (l.shutdown reason now).1.IsUnserved := by
  obtain ⟨-, hlisten, hlocal⟩ := l.shutdown_frame reason now
  exact ⟨by rw [hlisten, h.1], by rw [hlocal, h.2]⟩

/-- What once serves has served after every operation. -/
theorem HasServed.apply (h : l.HasServed endpoint) (op : Operation) :
    (l.apply op).HasServed endpoint := by
  rcases l.apply_cases op with ⟨network, now, -, he | ⟨reason, he⟩⟩ | ⟨-, stop, he⟩
  · rw [he, start_of_started h.1]
    exact h
  · rw [he, start_of_started h.1]
    exact h.shutdown reason now
  · rw [he]
    exact h

/-- What has lost its endpoint comes to no server with a later start. -/
theorem IsUnserved.start (h : l.IsUnserved) (network : Network) (now : Nat) :
    (l.start network now).1.IsUnserved := by
  by_cases hs : l.state = .starting
  · rw [start_of_no_listen hs h.1]
    exact h
  · rw [start_of_started hs]
    exact h

theorem IsUnserved.apply (h : l.IsUnserved) (op : Operation) : (l.apply op).IsUnserved := by
  rcases l.apply_cases op with ⟨network, now, -, he | ⟨reason, he⟩⟩ | ⟨-, stop, he⟩
  · rw [he]
    exact h.start network now
  · rw [he]
    exact (h.start network now).shutdown reason now
  · rw [he]
    exact h

/-- How a lifecycle that was to listen stands, when these are the networks it may have found. -/
def StandsBy (endpoint : Endpoint) (table : ServiceTable) (l : Lifecycle) : Option Network → Prop
  | none => l.IsNew endpoint table
  | some network => match network.listen endpoint with
    | .ok port => l.HasServed (endpoint.withPort port)
    | .error _ => l.IsUnserved

/-- The first start settles whether there is a server. -/
theorem IsNew.apply (h : l.IsNew endpoint table) (op : Operation) :
    StandsBy endpoint table (l.apply op) op.network? := by
  rcases l.apply_cases op with ⟨network, now, hn, he⟩ | ⟨hn, stop, he⟩
  · rw [hn, StandsBy]
    cases hb : network.listen endpoint with
    | error fault =>
      rw [start_of_error h hb] at he
      have hunserved : ({ l with listen := none } : Lifecycle).IsUnserved :=
        ⟨rfl, by simp only [localEndpoint, h.server, Option.map_none]⟩
      rcases he with he | ⟨reason, he⟩
      · rw [he]
        exact hunserved
      · rw [he]
        exact hunserved.shutdown reason now
    | ok port =>
      have hserved : (l.start network now).1.HasServed (endpoint.withPort port) := by
        rw [start_of_ok h hb]
        exact ⟨nofun, rfl⟩
      rcases he with he | ⟨reason, he⟩
      · rw [he]
        exact hserved
      · rw [he]
        exact hserved.shutdown reason now
  · rw [hn, he]
    exact ⟨h.state, h.listen, h.server, h.loops⟩

theorem operate_concat (l : Lifecycle) (ops : List Operation) (op : Operation) :
    l.operate (ops ++ [op]) = (l.operate ops).apply op := by
  simp only [operate, List.foldl_append, List.foldl_cons, List.foldl_nil]

/-- After any operations a lifecycle stands where its first start has left it. -/
theorem standsBy_operate (h : l.IsNew endpoint table) (ops : List Operation) :
    StandsBy endpoint table (l.operate ops) (Operation.first? ops) := by
  -- From the back, since only the first start settles anything and all others come after it.
  induction ops using List.reverseRecOn with
  | nil => exact h
  | append_singleton ops op ih =>
    rw [operate_concat, Operation.first?, List.findSome?_append, List.findSome?_singleton]
    change StandsBy endpoint table _ ((Operation.first? ops).or op.network?)
    cases hf : Operation.first? ops with
    | none =>
      rw [hf] at ih
      exact ih.apply op
    | some network =>
      rw [hf, StandsBy] at ih
      rw [Option.some_or, StandsBy]
      cases hb : network.listen endpoint with
      | error fault =>
        rw [hb] at ih
        exact ih.apply op
      | ok port =>
        rw [hb] at ih
        exact ih.apply op

/-- A start that cannot listen returns the fault and starts nothing, and the loops stay pending. The
endpoint and the table are lost: the next start succeeds without binding anything. So a lifecycle
that was to listen is past its start without a server exactly when its first start could not
bind, or could not ask for the port it had bound. -/
theorem served_iff_first_start (hl : l.IsNew endpoint table) :
    (∀ (network : Network) now fault, network.listen endpoint = .error fault →
      let failed := { l with listen := none }
      l.start network now = (failed, some fault) ∧
      l.startAndWait network now = (failed, .error fault) ∧
      failed.state = .starting ∧ failed.server = none ∧ failed.loops = [] ∧
      failed.pending = l.pending ∧
      ∀ network' now', failed.start network' now' = (failed.launch now', none)) ∧
    (∀ (network : Network) why, network.bind endpoint = .error why →
      network.listen endpoint = .error (.bind endpoint.text why)) ∧
    ∀ ops : List Operation,
      let l' := l.operate ops
      l'.state ≠ .starting →
        (l'.server.isSome ↔ ∃ network port, Operation.first? ops = some network ∧
          network.bind endpoint = .ok port ∧ network.portFault endpoint = none ∧
          l'.localEndpoint = some (endpoint.withPort port)) := by
  refine ⟨?_, fun network why hb => Network.listen_eq_error_iff.mpr (.inl ⟨why, hb, rfl⟩), ?_⟩
  · intro network now fault hb failed
    have hstart : l.start network now = (failed, some fault) := start_of_error hl hb now
    have hstarting : failed.state = .starting := hl.state
    refine ⟨hstart, ?_, hstarting, hl.server, hl.loops, rfl, fun network' now' => ?_⟩
    · simp only [startAndWait, hstart]
    · exact start_of_no_listen hstarting rfl network' now'
  · intro ops l' hs
    have hstands := standsBy_operate hl ops
    cases hf : Operation.first? ops with
    | none =>
      rw [hf] at hstands
      exact absurd hstands.state hs
    | some network =>
      rw [hf, StandsBy] at hstands
      have hsome : l'.server.isSome = l'.localEndpoint.isSome := by
        rw [localEndpoint, Option.isSome_map]
      cases hb : network.listen endpoint with
      | error fault =>
        rw [hb] at hstands
        have hnone : l'.localEndpoint = none := hstands.2
        simp [hsome, hnone]
      | ok port =>
        rw [hb] at hstands
        have hlocal : l'.localEndpoint = some (endpoint.withPort port) := hstands.2
        obtain ⟨hport, htold⟩ := Network.listen_eq_ok_iff.mp hb
        rw [hsome, hlocal]
        simp [hport, htold]

/-- A lifecycle that is to listen at a port below the free ones, with one loop of heartbeats. -/
def barred : Lifecycle where
  scenario := "6.1"
  drain := 0
  listen := some (⟨"192.0.2.1", 5⟩, .empty)
  pending := [{
    method := .heartbeat
    cadence := .periodic { interval := 10 }
    profile := ⟨"me", "me", ⟨"host", 1⟩, 0⟩ }]

theorem bind_barred : Network.isolated.bind ⟨"192.0.2.1", 5⟩ =
    .error "Permission denied (os error 13)" := by
  have haddress : Network.isAddress "192.0.2.1" = true :=
    Bool.or_eq_true_iff.mpr (.inr (by decide))
  simp only [Network.isolated, Network.bindHere, haddress]
  rfl

theorem listen_barred : Network.isolated.listen ⟨"192.0.2.1", 5⟩ =
    .error (.bind (Endpoint.text ⟨"192.0.2.1", 5⟩) "Permission denied (os error 13)") :=
  Network.listen_eq_error_iff.mpr (.inl ⟨_, bind_barred, rfl⟩)

theorem isNew_barred : barred.IsNew ⟨"192.0.2.1", 5⟩ .empty := ⟨rfl, rfl, rfl, rfl⟩

/-- The first start cannot bind and loses the endpoint. The second tries to bind nothing, and takes
the lifecycle to running without a server. -/
theorem barred_start_twice :
    let failed := (barred.start .isolated 0).1
    let again := failed.start .isolated 0
    (barred.start .isolated 0).2 =
      some (.bind "192.0.2.1:5" "Permission denied (os error 13)") ∧
    barred.listen.isSome = true ∧ failed.listen = none ∧
    again.2 = none ∧ again.1.state = .running ∧ again.1.server = none := by
  have htext : (⟨"192.0.2.1", 5⟩ : Endpoint).text = "192.0.2.1:5" := by cbv
  intro failed again
  have hstart := start_of_error isNew_barred listen_barred 0
  have hfailed : failed = { barred with listen := none } := congrArg Prod.fst hstart
  have hagain : again = (failed.launch 0, none) := by
    simp only [again, hfailed]
    exact start_of_no_listen rfl rfl .isolated 0
  refine ⟨?_, rfl, ?_, ?_, ?_, ?_⟩
  · rw [hstart, htext]
  · rw [hfailed]
  · rw [hagain]
  · rw [hagain]
    rfl
  · rw [hagain, hfailed]
    rfl

/-- A later network that would let it listen makes no difference. -/
theorem barred_unserved :
    let done := barred.operate [.start .isolated 0, .stop .external, .run .loopback 1]
    barred.IsNew ⟨"192.0.2.1", 5⟩ .empty ∧ done.state = .stopped ∧ done.server.isSome = false := by
  intro done
  have hdone : done.state = .stopped := by
    have hstart : barred.apply (.start .isolated 0) = { barred with listen := none } :=
      congrArg Prod.fst (start_of_error isNew_barred listen_barred 0)
    simp only [done, operate, List.foldl_cons, hstart]
    rfl
  refine ⟨isNew_barred, hdone, Bool.eq_false_iff.mpr fun hserver => ?_⟩
  obtain ⟨network, port, hfirst, hport, -⟩ :=
    ((served_iff_first_start isNew_barred).2.2 _ (by rw [hdone]; nofun)).mp hserver
  cases hfirst
  rw [bind_barred] at hport
  cases hport

end ScriptedPeer.Lifecycle
