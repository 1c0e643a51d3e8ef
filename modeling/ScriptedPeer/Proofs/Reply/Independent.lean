import ScriptedPeer.Proofs.Reply.Limits
import ScriptedPeer.Roster

/-!
# Handlers do not interfere

Handlers share a stop signal and whoever takes the triggers that their hooks raise. What the calls
of a method are answered depends on neither, and not on the calls of other methods: it is settled by
the last handler that was registered for the method and by the keys of its calls.
-/

namespace ScriptedPeer

namespace ReplyPolicy

/-- The verdict on a call with the given key, and the policy afterwards. -/
def answer (p : ReplyPolicy) (key : Option SequenceNumber) : Verdict × ReplyPolicy :=
  match p with
  | .always => (.acknowledge, .always)
  | .countThenStop counter =>
    (if counter.check.1 = .exhausted then .withhold else .acknowledge,
      .countThenStop counter.check.2)
  | .bySequence seen first duplicate => match key with
    | none => (.acknowledge, .bySequence seen first duplicate)
    | some number =>
      (if (seen.observe number).1 then first else duplicate,
        .bySequence (seen.observe number).2 first duplicate)

/-- The verdicts on calls with the given keys. -/
def verdicts : ReplyPolicy → List (Option SequenceNumber) → List Verdict
  | _, [] => []
  | p, key :: rest => (p.answer key).1 :: (p.answer key).2.verdicts rest

end ReplyPolicy

namespace Handler

/-- The stop signal has no part in a verdict, and of the call only its key has. -/
theorem decide_eq_answer (h : Handler) (stop : StopSignal) (r : Request) :
    ((h.decide stop r).1, (h.decide stop r).2.1) = h.policy.answer r.key? := by
  unfold decide
  cases hp : h.policy with
  | always => rfl
  | countThenStop counter =>
    simp only [ReplyPolicy.answer]
    cases hc : counter.check with
    | mk decision next => cases decision <;> rfl
  | bySequence seen first duplicate =>
    cases hk : r.key? with
    | none => rfl
    | some key => rfl

/-- The handler with another hook. -/
def withHook (h : Handler) (hook : Option EveryNth) : Handler := { h with hook }

/-- A handler answers by its policy and the key of the call, and by nothing else of it. -/
theorem handle_eq_answer {h : Handler} {r : Request} (hm : r.method = h.method)
    (stop : StopSignal) :
    (h.handle stop r).response = h.respond (h.policy.answer r.key?).1 ∧
      (h.handle stop r).handler.policy = (h.policy.answer r.key?).2 := by
  rw [handle_of_method_eq hm, ← decide_eq_answer h stop r]
  exact ⟨rfl, rfl⟩

end Handler

namespace ServiceTable

/-- A service table is known by its handlers. -/
theorem ext_get? {s t : ServiceTable} (h : ∀ m, s.get? m = t.get? m) : s = t := by
  cases s with | mk handlers placed =>
  cases t with | mk others placed' =>
  have he : handlers = others := ByMethod.ext_get h
  subst he
  rfl

/-- What calls of a method with the given keys are answered. -/
def answers (t : ServiceTable) (m : Method) (keys : List (Option SequenceNumber)) :
    List Response :=
  match t.get? m with
  | none => keys.map fun _ => .unimplemented m
  | some h => (h.policy.verdicts keys).map h.respond

theorem answers_nil (t : ServiceTable) (m : Method) : t.answers m [] = [] := by
  unfold answers
  split <;> rfl

theorem answers_congr {s t : ServiceTable} {m : Method} (h : s.get? m = t.get? m) :
    s.answers m = t.answers m := by
  funext keys
  rw [answers, answers, h]

/-- A dispatched call gets the first of the answers, and leaves the others to the calls after it. -/
theorem answers_dispatch (t : ServiceTable) (stop : StopSignal) (r : Request)
    (keys : List (Option SequenceNumber)) :
    t.answers r.method (r.key? :: keys) =
      (t.dispatch stop r).response :: (t.dispatch stop r).table.answers r.method keys := by
  change _ =
    (t.hand stop r.method r).response :: (t.hand stop r.method r).table.answers r.method keys
  cases ht : t.get? r.method with
  | none =>
    rw [hand_of_none ht]
    simp only [answers, ht, List.map_cons]
  | some h =>
    have hm : r.method = h.method := (method_of_get? ht).symm
    obtain ⟨hresponse, hpolicy⟩ := Handler.handle_eq_answer hm stop
    have hrespond : (h.handle stop r).handler.respond = h.respond := by
      funext v
      cases v <;> simp only [Handler.respond, Handler.profile_handle, Handler.method_handle]
    have hnext := get?_hand_self ht stop r
    rw [hand_of_some ht] at hnext ⊢
    simp only [answers, ht, hnext, hresponse, hpolicy, hrespond, ReplyPolicy.verdicts,
      List.map_cons]

/-- A call of another method leaves the answers as they are. -/
theorem answers_dispatch_of_ne (t : ServiceTable) (stop : StopSignal) {r : Request} {m : Method}
    (hm : r.method ≠ m) : (t.dispatch stop r).table.answers m = t.answers m :=
  answers_congr (get?_hand_of_ne t stop (Ne.symm hm) r)

end ServiceTable

namespace Roster

open ServiceTable

/-- A method has no place just if no handler is for it. -/
theorem placeIn_eq_none {m : Method} {hs : List Handler} :
    placeIn m hs = none ↔ ∀ h ∈ hs, h.method ≠ m := by
  induction hs with
  | nil => simp [placeIn]
  | cons g rest ih =>
    rw [List.forall_mem_cons, ← ih, placeIn]
    cases placeIn m rest with
    | none => simp
    | some n => simp

/-- Handler `n` is the last one that was registered for a method. -/
def IsLast (hs : List Handler) (m : Method) (n : Nat) : Prop :=
  (∃ h, hs[n]? = some h ∧ h.method = m) ∧ ∀ k h, n < k → hs[k]? = some h → h.method ≠ m

/-- The place of a method is that of its last handler. -/
theorem placeIn_eq_some {m : Method} {hs : List Handler} {n : Nat} :
    placeIn m hs = some n ↔ IsLast hs m n := by
  unfold IsLast
  induction hs generalizing n with
  | nil => simp [placeIn]
  | cons g rest ih =>
    have hbehind : (∀ k h, 0 < k → (g :: rest)[k]? = some h → h.method ≠ m) ↔
        placeIn m rest = none := by
      rw [placeIn_eq_none]
      constructor
      · intro hk h hh
        obtain ⟨k, hk'⟩ := List.mem_iff_getElem?.mp hh
        exact hk (k + 1) h (Nat.succ_pos k) hk'
      · intro hr k h hk hh
        obtain ⟨k, rfl⟩ := Nat.exists_eq_succ_of_ne_zero (Nat.ne_of_gt hk)
        exact hr h (List.mem_of_getElem? hh)
    cases n with
    | zero =>
      rw [hbehind, placeIn]
      cases placeIn m rest with
      | none => simp
      | some n => simp
    | succ n =>
      have hshift : (∀ k h, n + 1 < k → (g :: rest)[k]? = some h → h.method ≠ m) ↔
          ∀ k h, n < k → rest[k]? = some h → h.method ≠ m := by
        constructor
        · intro hk k h hn hh
          exact hk (k + 1) h (Nat.succ_lt_succ hn) hh
        · intro hk k h hn hh
          obtain ⟨k, rfl⟩ := Nat.exists_eq_succ_of_ne_zero (Nat.ne_of_gt (Nat.zero_lt_of_lt hn))
          exact hk k h (Nat.lt_of_succ_lt_succ hn) hh
      rw [hshift, List.getElem?_cons_succ, ← ih, placeIn]
      cases placeIn m rest with
      | none => simp
      | some k => simp

/-- Where the last handler of a method stands depends on the methods alone. -/
theorem placeIn_eq_of_methods {m : Method} {gs hs : List Handler}
    (h : gs.map (·.method) = hs.map (·.method)) : placeIn m gs = placeIn m hs := by
  induction gs generalizing hs with
  | nil => rw [List.map_eq_nil_iff.mp h.symm]
  | cons g rest ih =>
    obtain ⟨h', rest', rfl, hhead, htail⟩ := List.map_eq_cons_iff.mp h.symm
    rw [placeIn, placeIn, ih htail.symm, hhead]

theorem methods_set {hs : List Handler} {n : Nat} {g h : Handler} (hn : hs[n]? = some h)
    (hg : g.method = h.method) : (hs.set n g).map (·.method) = hs.map (·.method) := by
  apply List.ext_getElem?
  intro k
  rw [List.map_set, hg, List.getElem?_set]
  by_cases hk : n = k
  · subst hk
    obtain ⟨hlt, -⟩ := List.getElem?_eq_some_iff.mp hn
    rw [if_pos rfl, if_pos (by rwa [List.length_map]), List.getElem?_map, hn, Option.map_some]
  · rw [if_neg hk]

/-- Of several handlers of a method the last one that was registered serves it. -/
theorem get?_foldl_register (hs : List Handler) (t : ServiceTable) (m : Method) :
    (hs.foldl register t).get? m = match placeIn m hs with
      | some n => hs[n]?
      | none => t.get? m := by
  induction hs generalizing t with
  | nil => rfl
  | cons g rest ih =>
    rw [List.foldl_cons, ih, placeIn]
    cases placeIn m rest with
    | some n => rfl
    | none =>
      by_cases hg : g.method = m
      · rw [if_pos hg, ← hg]
        exact get?_register_self t g
      · rw [if_neg hg]
        exact get?_register_of_ne t (Ne.symm hg)

/-- The table has the last handler of each method. -/
theorem get?_table (r : Roster) (m : Method) :
    r.table.get? m = (r.place? m).bind (r.handlers[·]?) := by
  rw [table, ofHandlers, get?_foldl_register, place?]
  cases placeIn m r.handlers with
  | some n => rfl
  | none =>
    rw [Option.bind_none, get?, empty, ByMethod.get_all]

variable {r : Roster} {q : Request}

/-- A call that nobody handles changes no handler. -/
theorem roster_dispatch_of_none (hp : r.place? q.method = none) (stop : StopSignal) :
    (r.dispatch stop q).roster = r := by
  simp only [dispatch, hp]

/-- A dispatched call is handled by the last handler of its method, in its place. -/
theorem roster_dispatch_of_place {n : Nat} {h : Handler} (hp : r.place? q.method = some n)
    (hn : r.handlers[n]? = some h) (stop : StopSignal) :
    (r.dispatch stop q).roster = ⟨r.handlers.set n (h.handle stop q).handler⟩ := by
  have hg : r.table.get? q.method = some h := by rw [get?_table, hp, Option.bind_some, hn]
  have hd : (r.table.dispatch stop q).table.get? q.method = some (h.handle stop q).handler :=
    get?_hand_self hg stop q
  simp only [dispatch, hp, hd]

/-- The table of a roster goes the way of a table that has its handlers. -/
theorem table_dispatch (r : Roster) (stop : StopSignal) (q : Request) :
    (r.dispatch stop q).roster.table = (r.table.dispatch stop q).table := by
  cases hp : r.place? q.method with
  | none =>
    have hg : r.table.get? q.method = none := by rw [get?_table, hp, Option.bind_none]
    rw [roster_dispatch_of_none hp, dispatch_of_get?_eq_none hg]
  | some n =>
    obtain ⟨⟨h, hn, hm⟩, hlast⟩ := placeIn_eq_some.mp hp
    have hlt : n < r.handlers.length := (List.getElem?_eq_some_iff.mp hn).1
    have hg : r.table.get? q.method = some h := by rw [get?_table, hp, Option.bind_some, hn]
    apply ext_get?
    intro m
    have hplace : (r.dispatch stop q).roster.place? m = r.place? m := by
      rw [roster_dispatch_of_place hp hn]
      exact placeIn_eq_of_methods (methods_set hn (Handler.method_handle h stop q))
    rw [get?_table, hplace, roster_dispatch_of_place hp hn]
    by_cases hq : m = q.method
    · rw [hq, hp, Option.bind_some, List.getElem?_set_self hlt]
      exact (get?_hand_self hg stop q).symm
    · have hother : (r.table.dispatch stop q).table.get? m = r.table.get? m :=
        get?_hand_of_ne r.table stop hq q
      rw [hother, get?_table]
      cases hpm : r.place? m with
      | none => rfl
      | some k =>
        obtain ⟨⟨g, hk, hgm⟩, -⟩ := placeIn_eq_some.mp hpm
        have hne : n ≠ k := by
          rintro rfl
          rw [hn] at hk
          cases hk
          exact hq (hgm.symm.trans hm)
        rw [Option.bind_some, Option.bind_some, List.getElem?_set_ne hne]

/-- The roster with a hook of its own for each handler, or none. -/
def withHooks (r : Roster) (hooks : Nat → Option EveryNth) : Roster :=
  ⟨r.handlers.mapIdx fun n h => h.withHook (hooks n)⟩

/-- Hooks have no part in what calls are answered. -/
theorem answers_withHooks (r : Roster) (hooks : Nat → Option EveryNth) (m : Method) :
    (r.withHooks hooks).table.answers m = r.table.answers m := by
  have hplace : (r.withHooks hooks).place? m = r.place? m := by
    apply placeIn_eq_of_methods
    apply List.ext_getElem?
    intro n
    simp only [withHooks, List.getElem?_map, List.getElem?_mapIdx, Option.map_map]
    rfl
  funext keys
  rw [answers, answers, get?_table, get?_table, hplace]
  cases r.place? m with
  | none => rfl
  | some n =>
    rw [Option.bind_some, Option.bind_some, withHooks, List.getElem?_mapIdx]
    cases r.handlers[n]? with
    | none => rfl
    | some h =>
      have hrespond : (h.withHook (hooks n)).respond = h.respond := by
        funext v
        cases v <;> rfl
      simp only [Option.map_some, hrespond]
      rfl

end Roster

/-- Handlers with what they share: the stop signal, and the triggers that their hooks have raised,
as long as somebody is left to take them. -/
structure Desk where
  roster : Roster
  stop : StopSignal
  triggers : Option Nat
  deriving DecidableEq, Repr

inductive DeskEvent where
  /-- A call is dispatched. -/
  | call (request : Request)
  /-- Somebody else gives the stop. -/
  | stop (reason : StopReason)
  /-- A trigger is taken. -/
  | take
  /-- From now on nobody takes triggers. -/
  | leave
  deriving DecidableEq, Repr

namespace DeskEvent

def request? : DeskEvent → Option Request
  | call r => some r
  | stop _ | take | leave => none

/-- The keys of the calls of a method. -/
def keysOf (m : Method) (events : List DeskEvent) : List (Option SequenceNumber) :=
  ((events.filterMap request?).filter (·.method = m)).map Request.key?

end DeskEvent

namespace Desk

open DeskEvent

def call (d : Desk) (q : Request) : Desk :=
  let done := d.roster.dispatch d.stop q
  { roster := done.roster
    stop := done.stop
    triggers := d.triggers.map (· + if done.fired then 1 else 0) }

def step (d : Desk) : DeskEvent → Desk
  | .call q => d.call q
  | .stop reason => { d with stop := d.stop.trigger reason }
  | .take => { d with triggers := d.triggers.map (· - 1) }
  | .leave => { d with triggers := none }

/-- What the calls of a method are answered, in order. -/
def responses (d : Desk) (m : Method) : List DeskEvent → List Response
  | [] => []
  | e :: rest => match e.request? with
    | some q =>
      if q.method = m then (d.roster.dispatch d.stop q).response :: (d.step e).responses m rest
      else (d.step e).responses m rest
    | none => (d.step e).responses m rest

theorem roster_step_of_none {e : DeskEvent} (he : e.request? = none) (d : Desk) :
    (d.step e).roster = d.roster := by
  cases e with
  | call q => cases he
  | stop reason => rfl
  | take => rfl
  | leave => rfl

/-- The calls of a method are answered by their keys and the handlers at the beginning. -/
theorem responses_eq_answers (d : Desk) (m : Method) (events : List DeskEvent) :
    d.responses m events = d.roster.table.answers m (keysOf m events) := by
  -- Over all desks, since every event leaves another one. Its table is all that the answers need.
  induction events generalizing d with
  | nil => exact (ServiceTable.answers_nil _ _).symm
  | cons e rest ih =>
    rw [responses]
    cases he : e.request? with
    | none =>
      have hk : keysOf m (e :: rest) = keysOf m rest := by
        simp only [keysOf, List.filterMap_cons, he]
      simp only [ih, hk, roster_step_of_none he]
    | some q =>
      have hs : (d.step e).roster = (d.roster.dispatch d.stop q).roster := by
        cases e with
        | call q' =>
          cases he
          rfl
        | stop _ | take | leave => cases he
      have hresponse : (d.roster.dispatch d.stop q).response =
        (d.roster.table.dispatch d.stop q).response := rfl
      by_cases hm : q.method = m
      · subst hm
        have hk : keysOf q.method (e :: rest) = q.key? :: keysOf q.method rest := by
          simp [keysOf, he]
        simp only [ih, hk, hs, if_true, Roster.table_dispatch, hresponse]
        exact (d.roster.table.answers_dispatch d.stop q _).symm
      · have hk : keysOf m (e :: rest) = keysOf m rest := by
          simp [keysOf, he, hm]
        simp only [ih, hk, hs, if_neg hm, Roster.table_dispatch,
          ServiceTable.answers_dispatch_of_ne _ _ hm]

/-- The calls of a method are answered alike in any two courses of events in which they have the
same keys in the same order, whatever the other calls are, when the stop is given, what hooks there
are and who takes their triggers. A call changes no handler but the last one of its method, which
counts it. -/
theorem responses_eq_of_keys (handlers : List Handler) (m : Method)
    (hooks hooks' : Nat → Option EveryNth) (stop stop' : StopSignal)
    (triggers triggers' : Option Nat) (events events' : List DeskEvent)
    (hkeys : keysOf m events = keysOf m events') :
    (Desk.mk (Roster.withHooks ⟨handlers⟩ hooks) stop triggers).responses m events =
      (Desk.mk (Roster.withHooks ⟨handlers⟩ hooks') stop' triggers').responses m events' ∧
    ∀ (d : Desk) (q : Request) n h, d.roster.handlers[n]? = some h →
      (¬Roster.IsLast d.roster.handlers q.method n → (d.call q).roster.handlers[n]? = some h) ∧
      (Roster.IsLast d.roster.handlers q.method n →
        ∃ g, (d.call q).roster.handlers[n]? = some g ∧ g.invocations = h.invocations + 1 ∧
          g.policy = (h.policy.answer q.key?).2) := by
  constructor
  · rw [responses_eq_answers, responses_eq_answers, Roster.answers_withHooks,
      Roster.answers_withHooks, hkeys]
  · intro d q n h hn
    have hcall : (d.call q).roster = (d.roster.dispatch d.stop q).roster := rfl
    rw [← Roster.placeIn_eq_some, hcall]
    constructor
    · intro hnot
      cases hp : d.roster.place? q.method with
      | none => rw [Roster.roster_dispatch_of_none hp, hn]
      | some k =>
        obtain ⟨⟨g, hk, -⟩, -⟩ := Roster.placeIn_eq_some.mp hp
        have hne : k ≠ n := by
          rintro rfl
          exact hnot hp
        rw [Roster.roster_dispatch_of_place hp hk, List.getElem?_set_ne hne, hn]
    · intro hp
      obtain ⟨⟨g, hg, hm⟩, -⟩ := Roster.placeIn_eq_some.mp hp
      rw [hn] at hg
      cases hg
      have hlt : n < d.roster.handlers.length := (List.getElem?_eq_some_iff.mp hn).1
      rw [Roster.roster_dispatch_of_place hp hn, List.getElem?_set_self hlt]
      refine ⟨_, rfl, ?_, (Handler.handle_eq_answer hm.symm d.stop).2⟩
      rw [Handler.handle_of_method_eq hm.symm]

/-- A handler of Tells that has been replaced, the one in its place, and one of Heartbeats. -/
def rivals : List Handler :=
  let me : Profile := ⟨"me", "me", ⟨"host", 1⟩, 0⟩
  [⟨.tell, .counting 2, me, none, 0⟩, ⟨.tell, .sequenced .acknowledge .withhold, me, none, 0⟩,
    ⟨.heartbeat, .counting 1, me, none, 0⟩]

def quietCourse : List DeskEvent :=
  [.call (.tell ⟨"a", "first", ⟨1⟩, ⟨0⟩⟩), .call (.tell ⟨"a", "again", ⟨1⟩, ⟨9⟩⟩)]

/-- The last Heartbeat gives the stop, and somebody leaves between the two Tells. -/
def busyCourse : List DeskEvent :=
  [.call (.heartbeat "b"), .call (.tell ⟨"c", "one", ⟨1⟩, ⟨5⟩⟩), .leave,
    .call (.greet ⟨"d", "d", "d:1"⟩), .call (.tell ⟨"d", "two", ⟨1⟩, ⟨7⟩⟩)]

/-- The second Tell is withheld, whatever happens beside it, and the handler that was replaced is
not called. -/
theorem busyCourse_responses :
    keysOf .tell busyCourse = keysOf .tell quietCourse ∧
    (Desk.mk (Roster.withHooks ⟨rivals⟩ fun _ => some { period := 1 }) {} (some 0)).responses .tell
        busyCourse = [.reply (.tell "me"), .withhold] ∧
    ((Desk.mk ⟨rivals⟩ {} none).call (.tell ⟨"a", "first", ⟨1⟩, ⟨0⟩⟩)).roster.handlers[0]? =
      rivals[0]? := by
  have hkeys : keysOf .tell busyCourse = keysOf .tell quietCourse := by decide
  obtain ⟨halike, hcalled⟩ := responses_eq_of_keys rivals .tell (fun _ => some { period := 1 })
    (fun _ => none) {} {} (some 0) none busyCourse quietCourse hkeys
  refine ⟨hkeys, ?_, ?_⟩
  · rw [halike]
    decide
  · apply (hcalled ⟨⟨rivals⟩, {}, none⟩ (.tell ⟨"a", "first", ⟨1⟩, ⟨0⟩⟩) 0 _ rfl).1
    intro hlast
    exact hlast.2 1 _ (by decide) rfl rfl

end Desk
end ScriptedPeer
