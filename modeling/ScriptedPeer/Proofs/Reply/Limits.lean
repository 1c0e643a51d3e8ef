import Mathlib.Data.List.Induction
import ScriptedPeer.Proofs.Counter
import ScriptedPeer.ServiceTable

/-!
# Reply limits

Several counting handlers may stand in one table, next to others, and share the stop signal. Each
counts the calls that reach it and no others: with a limit of `n` it replies `n` times and withholds
from then on. The first handler that gives its last reply gives the stop, and nothing that follows
changes the reason.
-/

namespace ScriptedPeer

open BoundedCounter

/-- A call that is served: by the table, or by the handler of `owner`, whatever its own method is. -/
inductive CallEvent where
  | dispatched (request : Request)
  | handed (owner : Method) (request : Request)
  deriving DecidableEq, Repr

namespace CallEvent

def request : CallEvent → Request
  | dispatched r | handed _ r => r

/-- The method whose handler gets the call. -/
def target : CallEvent → Method
  | dispatched r => r.method
  | handed owner _ => owner

/-- Whether the call gets to the handler of `m` and is of that method. -/
def reaches (e : CallEvent) (m : Method) : Bool := e.target = m ∧ e.request.method = m

theorem reaches_iff {e : CallEvent} {m : Method} :
    e.reaches m = true ↔ e.target = m ∧ e.request.method = m := decide_eq_true_iff

/-- How many calls have reached the handler of `m`. -/
def callsOf (m : Method) (trace : List CallEvent) : Nat := trace.countP (·.reaches m)

@[simp] theorem callsOf_nil (m : Method) : callsOf m [] = 0 := rfl

/-- A call counts for the handler of its method, if it reaches one. -/
theorem callsOf_concat (m : Method) (trace : List CallEvent) (e : CallEvent) :
    callsOf m (trace ++ [e]) = callsOf m trace + if e.reaches m then 1 else 0 := by
  rw [callsOf, List.countP_append, List.countP_singleton]
  rfl

end CallEvent

namespace Handler

/-- The counter of a counting handler. -/
def counter? (h : Handler) : Option BoundedCounter :=
  match h.policy with
  | .countThenStop counter => some counter
  | .always | .bySequence .. => none

theorem counter?_eq_some {h : Handler} {c : BoundedCounter} :
    h.counter? = some c ↔ h.policy = .countThenStop c := by
  unfold counter?
  split <;> simp_all

/-- A counting handler asks its counter at every call. -/
theorem handle_of_counter {h : Handler} {c : BoundedCounter} (hc : h.counter? = some c)
    {r : Request} (hm : r.method = h.method) (stop : StopSignal) :
    (h.handle stop r).handler.counter? = some c.check.2 ∧
      (h.handle stop r).response =
        (if c.check.1 = .exhausted then .withhold else .reply (h.profile.reply h.method)) ∧
      (h.handle stop r).stop =
        if c.check.1 = .limitReached then stop.trigger (.replyLimit h.method) else stop := by
  rw [handle_of_method_eq hm]
  unfold decide
  rw [counter?_eq_some.mp hc]
  cases hcheck : c.check with
  | mk decision next =>
    simp only [hcheck]
    cases decision <;> exact ⟨rfl, rfl, rfl⟩

/-- A handler that does not count leaves the stop signal alone and does not begin to count. -/
theorem handle_of_no_counter {h : Handler} (hc : h.counter? = none) (stop : StopSignal)
    (r : Request) :
    (h.handle stop r).handler.counter? = none ∧ (h.handle stop r).stop = stop := by
  by_cases hm : r.method = h.method
  · rw [handle_of_method_eq hm]
    unfold decide
    cases hp : h.policy with
    | always => exact ⟨rfl, rfl⟩
    | countThenStop counter => simp [counter?, hp] at hc
    | bySequence seen first duplicate => cases r.key? <;> exact ⟨rfl, rfl⟩
  · rw [handle_of_method_ne hm]
    exact ⟨hc, rfl⟩

end Handler

namespace ServiceTable

/-- Hands a request to the handler of `m` itself. -/
def hand (t : ServiceTable) (stop : StopSignal) (m : Method) (r : Request) : Outcome :=
  match t.get? m with
  | none => ⟨.unimplemented r.method, t, stop, false⟩
  | some h =>
    let done := h.handle stop r
    ⟨done.response, t.register done.handler, done.stop, done.fired⟩

def take (t : ServiceTable) (stop : StopSignal) : CallEvent → Outcome
  | .dispatched r => t.dispatch stop r
  | .handed owner r => t.hand stop owner r

/-- To dispatch a request is to hand it to the handler of its method. -/
theorem take_eq_hand (t : ServiceTable) (stop : StopSignal) (e : CallEvent) :
    t.take stop e = t.hand stop e.target e.request := by
  cases e <;> rfl

/-- The table and the stop signal after a trace of calls, each of which is served as a whole. -/
def after (t : ServiceTable) (stop : StopSignal) (trace : List CallEvent) :
    ServiceTable × StopSignal :=
  trace.foldl (fun s e => ((s.1.take s.2 e).table, (s.1.take s.2 e).stop)) (t, stop)

theorem after_concat (t : ServiceTable) (stop : StopSignal) (trace : List CallEvent)
    (e : CallEvent) : t.after stop (trace ++ [e]) =
      let s := t.after stop trace
      ((s.1.take s.2 e).table, (s.1.take s.2 e).stop) := by
  simp only [after, List.foldl_append, List.foldl_cons, List.foldl_nil]

def counter? (t : ServiceTable) (m : Method) : Option BoundedCounter :=
  (t.get? m).bind Handler.counter?

/-- The limit of the handler of `m`, if it counts. -/
def limit? (t : ServiceTable) (m : Method) : Option UInt32 := (t.counter? m).map (·.limit)

def profile? (t : ServiceTable) (m : Method) : Option Profile := (t.get? m).map (·.profile)

/-- No counting handler has counted anything yet. -/
def Fresh (t : ServiceTable) : Prop := ∀ m c, t.counter? m = some c → c.count = 0

theorem hand_of_none {t : ServiceTable} {m : Method} (ht : t.get? m = none) (stop : StopSignal)
    (r : Request) : t.hand stop m r = ⟨.unimplemented r.method, t, stop, false⟩ := by
  simp only [hand, ht]

theorem hand_of_some {t : ServiceTable} {m : Method} {h : Handler} (ht : t.get? m = some h)
    (stop : StopSignal) (r : Request) :
    t.hand stop m r = ⟨(h.handle stop r).response, t.register (h.handle stop r).handler,
      (h.handle stop r).stop, (h.handle stop r).fired⟩ := by
  simp only [hand, ht]

/-- After a call the handler it was handed to is the one that has handled it. -/
theorem get?_hand_self {t : ServiceTable} {m : Method} {h : Handler} (ht : t.get? m = some h)
    (stop : StopSignal) (r : Request) :
    (t.hand stop m r).table.get? m = some (h.handle stop r).handler := by
  have hm : (h.handle stop r).handler.method = m := by
    rw [Handler.method_handle, method_of_get? ht]
  have hs := get?_register_self t (h.handle stop r).handler
  rw [hm] at hs
  rw [hand_of_some ht]
  exact hs

/-- The other handlers stay as they are. -/
theorem get?_hand_of_ne (t : ServiceTable) (stop : StopSignal) {m n : Method} (hn : n ≠ m)
    (r : Request) : (t.hand stop m r).table.get? n = t.get? n := by
  cases ht : t.get? m with
  | none => rw [hand_of_none ht]
  | some h =>
    rw [hand_of_some ht]
    apply get?_register_of_ne
    rw [Handler.method_handle, method_of_get? ht]
    exact hn

/-- A call of another method that is handed to a handler changes nothing. -/
theorem hand_of_method_ne (t : ServiceTable) (stop : StopSignal) {m : Method} {r : Request}
    (hr : r.method ≠ m) :
    (t.hand stop m r).response = .unimplemented r.method ∧ (t.hand stop m r).stop = stop ∧
      ∀ n, (t.hand stop m r).table.get? n = t.get? n := by
  cases ht : t.get? m with
  | none =>
    rw [hand_of_none ht]
    exact ⟨rfl, rfl, fun n => rfl⟩
  | some h =>
    have hh := Handler.handle_of_method_ne (h := h) (r := r) (by rwa [method_of_get? ht]) stop
    refine ⟨by rw [hand_of_some ht, hh], by rw [hand_of_some ht, hh], ?_⟩
    intro n
    by_cases hn : n = m
    · rw [hn, get?_hand_self ht, hh, ht]
    · exact get?_hand_of_ne t stop hn r

/-- A call changes nothing of a handler that it does not reach. -/
theorem get?_take_of_not_reaches (t : ServiceTable) (stop : StopSignal) {e : CallEvent} {m : Method}
    (he : ¬ e.reaches m) : (t.take stop e).table.get? m = t.get? m := by
  rw [take_eq_hand]
  by_cases hm : m = e.target
  · apply (hand_of_method_ne t stop _).2.2
    intro hr
    exact he (CallEvent.reaches_iff.mpr ⟨hm.symm, by rw [hr, hm]⟩)
  · exact get?_hand_of_ne t stop hm e.request

/-- What a call does that reaches a counting handler. -/
theorem take_of_counter {t : ServiceTable} {m : Method} {c : BoundedCounter} {p : Profile}
    (hc : t.counter? m = some c) (hp : t.profile? m = some p) (stop : StopSignal) {e : CallEvent}
    (he : e.reaches m) :
    (t.take stop e).table.counter? m = some c.check.2 ∧
      (t.take stop e).response =
        (if c.check.1 = .exhausted then .withhold else .reply (p.reply m)) ∧
      (t.take stop e).stop =
        if c.check.1 = .limitReached then stop.trigger (.replyLimit m) else stop := by
  obtain ⟨rfl, hr⟩ := CallEvent.reaches_iff.mp he
  obtain ⟨h, ht, hhc⟩ := Option.bind_eq_some_iff.mp hc
  have hh := method_of_get? ht
  rw [profile?, ht] at hp
  cases hp
  obtain ⟨hcounter, hresponse, hstop⟩ := Handler.handle_of_counter hhc (hr.trans hh.symm) stop
  rw [take_eq_hand]
  refine ⟨?_, ?_, ?_⟩
  · rw [counter?, get?_hand_self ht]
    exact hcounter
  · rw [hand_of_some ht, hresponse, hh]
  · rw [hand_of_some ht, hstop, hh]

/-- A call that reaches no counting handler leaves the stop signal alone. -/
theorem stop_take_of_no_counter {t : ServiceTable} (stop : StopSignal) {e : CallEvent}
    (hc : ∀ m, e.reaches m → t.counter? m = none) : (t.take stop e).stop = stop := by
  rw [take_eq_hand]
  by_cases hr : e.request.method = e.target
  · cases ht : t.get? e.target with
    | none => rw [hand_of_none ht]
    | some h =>
      have hn := hc e.target (CallEvent.reaches_iff.mpr ⟨rfl, hr⟩)
      rw [counter?, ht] at hn
      rw [hand_of_some ht]
      exact (Handler.handle_of_no_counter hn stop e.request).2
  · exact (hand_of_method_ne t stop hr).2.1

theorem counter?_take_of_none {t : ServiceTable} {m : Method} (hc : t.counter? m = none)
    (stop : StopSignal) (e : CallEvent) : (t.take stop e).table.counter? m = none := by
  by_cases he : e.reaches m
  · obtain ⟨rfl, -⟩ := CallEvent.reaches_iff.mp he
    rw [take_eq_hand, counter?]
    cases ht : t.get? e.target with
    | none => rw [hand_of_none ht, ht, Option.bind_none]
    | some h =>
      rw [counter?, ht] at hc
      rw [get?_hand_self ht]
      exact (Handler.handle_of_no_counter hc stop e.request).1
  · rw [counter?, get?_take_of_not_reaches t stop he]
    exact hc

theorem profile?_take (t : ServiceTable) (stop : StopSignal) (e : CallEvent) (m : Method) :
    (t.take stop e).table.profile? m = t.profile? m := by
  by_cases he : e.reaches m
  · obtain ⟨rfl, -⟩ := CallEvent.reaches_iff.mp he
    rw [take_eq_hand, profile?, profile?]
    cases ht : t.get? e.target with
    | none => rw [hand_of_none ht, ht]
    | some h => rw [get?_hand_self ht, Option.map_some, Handler.profile_handle, Option.map_some]
  · rw [profile?, get?_take_of_not_reaches t stop he, profile?]

/-- No handler changes who it speaks for. -/
theorem profile?_after (t : ServiceTable) (stop : StopSignal) (past : List CallEvent)
    (m : Method) : (t.after stop past).1.profile? m = t.profile? m := by
  induction past using List.reverseRecOn with
  | nil => rfl
  | append_singleton past e ih => rw [after_concat, profile?_take, ih]

theorem profile?_of_counter {t : ServiceTable} {m : Method} {c : BoundedCounter}
    (hc : t.counter? m = some c) : ∃ p, t.profile? m = some p := by
  obtain ⟨h, ht, -⟩ := Option.bind_eq_some_iff.mp hc
  exact ⟨h.profile, by rw [profile?, ht, Option.map_some]⟩

/-- A fresh counter has its limit and has counted nothing. -/
theorem counter?_of_fresh {t : ServiceTable} (hf : t.Fresh) (m : Method) :
    t.counter? m = (t.limit? m).map (askedTimes · 0) := by
  rw [limit?]
  cases hc : t.counter? m with
  | none => rfl
  | some c =>
    have h0 := hf m c hc
    cases c
    simp_all

/-- After any trace a counter has been asked once for each call that has reached its handler. -/
theorem counter?_after {t : ServiceTable} (hf : t.Fresh) (stop : StopSignal)
    (past : List CallEvent) (m : Method) :
    (t.after stop past).1.counter? m =
      (t.limit? m).map (askedTimes · (CallEvent.callsOf m past)) := by
  induction past using List.reverseRecOn with
  | nil => exact counter?_of_fresh hf m
  | append_singleton past e ih =>
    rw [after_concat, CallEvent.callsOf_concat]
    by_cases he : e.reaches m
    · rw [if_pos he]
      cases hl : t.limit? m with
      | none =>
        rw [hl, Option.map_none] at ih
        rw [counter?_take_of_none ih, Option.map_none]
      | some n =>
        rw [hl, Option.map_some] at ih
        obtain ⟨p, hp⟩ := profile?_of_counter ih
        rw [(take_of_counter ih hp _ he).1, check_askedTimes, Option.map_some]
    · rw [if_neg he, Nat.add_zero, ← ih, counter?, get?_take_of_not_reaches _ _ he, counter?]

/-- What a call does that reaches a handler with a limit, after any trace. -/
theorem take_after {t : ServiceTable} (hf : t.Fresh) (stop : StopSignal) (past : List CallEvent)
    {e : CallEvent} {m : Method} {n : UInt32} {p : Profile} (hl : t.limit? m = some n)
    (hp : t.profile? m = some p) (he : e.reaches m) :
    let s := t.after stop past
    let number := CallEvent.callsOf m past + 1
    (s.1.take s.2 e).response = (if number ≤ n.toNat then .reply (p.reply m) else .withhold) ∧
      (s.1.take s.2 e).stop =
        if number = n.toNat then s.2.trigger (.replyLimit m) else s.2 := by
  intro s number
  have hc := counter?_after hf stop past m
  rw [hl, Option.map_some] at hc
  have hps : s.1.profile? m = some p := by rw [profile?_after, hp]
  obtain ⟨-, hresponse, hstop⟩ := take_of_counter hc hps s.2 he
  rw [hresponse, hstop, check_askedTimes]
  by_cases hlt : number < n.toNat
  · simp [number, hlt, Nat.le_of_lt hlt, Nat.ne_of_lt hlt]
  · by_cases heq : number = n.toNat
    · simp [number, heq]
    · have hle : ¬ number ≤ n.toNat := by omega
      simp [number, hlt, heq, hle]

/-- A call that reaches no counting handler leaves the stop alone. -/
theorem take_after_of_no_limit {t : ServiceTable} (hf : t.Fresh) (stop : StopSignal)
    (past : List CallEvent) {e : CallEvent} (hl : ∀ m, e.reaches m → t.limit? m = none) :
    ((t.after stop past).1.take (t.after stop past).2 e).stop = (t.after stop past).2 := by
  apply stop_take_of_no_counter
  intro m he
  rw [counter?_after hf, hl m he, Option.map_none]

/-- With this call after these the handler of `m`, which has a limit, gives its last reply. -/
def UsesUp (t : ServiceTable) (past : List CallEvent) (e : CallEvent) (m : Method) : Prop :=
  ∃ n, t.limit? m = some n ∧ e.reaches m ∧ CallEvent.callsOf m past + 1 = n.toNat

theorem UsesUp.target_eq {t : ServiceTable} {past : List CallEvent} {e : CallEvent} {m : Method}
    (h : t.UsesUp past e m) : e.target = m := by
  obtain ⟨_, -, he, -⟩ := h
  exact (CallEvent.reaches_iff.mp he).1

/-- The only call that gives the stop is one that uses up a limit. -/
theorem stop_after_concat {t : ServiceTable} (hf : t.Fresh) (stop : StopSignal)
    (past : List CallEvent) (e : CallEvent) :
    (∃ m, t.UsesUp past e m ∧
      (t.after stop (past ++ [e])).2 = (t.after stop past).2.trigger (.replyLimit m)) ∨
    ((∀ m, ¬ t.UsesUp past e m) ∧ (t.after stop (past ++ [e])).2 = (t.after stop past).2) := by
  rw [after_concat]
  by_cases hl : ∀ m, e.reaches m → t.limit? m = none
  · right
    refine ⟨?_, take_after_of_no_limit hf stop past hl⟩
    rintro m ⟨n, hn, he, -⟩
    rw [hl m he] at hn
    cases hn
  · push Not at hl
    obtain ⟨m, he, hm⟩ := hl
    obtain ⟨n, hn⟩ := Option.ne_none_iff_exists'.mp hm
    obtain ⟨c, hc, -⟩ := Option.map_eq_some_iff.mp hn
    obtain ⟨p, hp⟩ := profile?_of_counter hc
    have hstop := (take_after hf stop past hn hp he).2
    by_cases hk : CallEvent.callsOf m past + 1 = n.toNat
    · rw [if_pos hk] at hstop
      exact .inl ⟨m, ⟨n, hn, he, hk⟩, hstop⟩
    · rw [if_neg hk] at hstop
      refine .inr ⟨?_, hstop⟩
      intro m' hm'
      have hmm : m' = m := hm'.target_eq.symm.trans (CallEvent.reaches_iff.mp he).1
      subst hmm
      obtain ⟨n', hn', -, hk'⟩ := hm'
      rw [hn] at hn'
      cases hn'
      exact hk hk'

/-- The stop is still not given just if the last call used up no limit either. -/
theorem reason_concat_eq_none {t : ServiceTable} (hf : t.Fresh) (stop : StopSignal)
    (past : List CallEvent) (e : CallEvent) :
    (t.after stop (past ++ [e])).2.reason = none ↔
      (t.after stop past).2.reason = none ∧ ∀ m, ¬ t.UsesUp past e m := by
  rcases stop_after_concat hf stop past e with ⟨m, hm, hs⟩ | ⟨hn, hs⟩
  · rw [hs]
    simp only [StopSignal.trigger, Option.or_eq_none_iff, reduceCtorEq, and_false, false_iff]
    exact fun h => h.2 m hm
  · rw [hs]
    exact (and_iff_left hn).symm

/-- The reason of the stop is the one there was, or the first limit that was used up. -/
theorem reason_concat_eq_some {t : ServiceTable} (hf : t.Fresh) (stop : StopSignal)
    (past : List CallEvent) (e : CallEvent) (q : StopReason) :
    (t.after stop (past ++ [e])).2.reason = some q ↔
      (t.after stop past).2.reason = some q ∨
        (t.after stop past).2.reason = none ∧ ∃ m, t.UsesUp past e m ∧ q = .replyLimit m := by
  rcases stop_after_concat hf stop past e with ⟨m, hm, hs⟩ | ⟨hn, hs⟩
  · rw [hs]
    cases hr : (t.after stop past).2.reason with
    | none =>
      simp only [StopSignal.trigger, hr, Option.none_or, Option.some.injEq, reduceCtorEq, true_and,
        false_or]
      constructor
      · rintro rfl
        exact ⟨m, hm, rfl⟩
      · rintro ⟨m', hm', rfl⟩
        rw [← hm.target_eq, ← hm'.target_eq]
    | some q' => simp [StopSignal.trigger, hr]
  · rw [hs]
    refine ⟨.inl, ?_⟩
    rintro (h | ⟨-, m, hm, -⟩)
    · exact h
    · exact absurd hm (hn m)

/-- The stop has not been given as long as no handler with a limit has had all its calls. -/
theorem reason_after_eq_none {t : ServiceTable} (hf : t.Fresh) (past : List CallEvent) :
    (t.after {} past).2.reason = none ↔
      ∀ m n, t.limit? m = some n → n ≠ 0 → CallEvent.callsOf m past < n.toNat := by
  induction past using List.reverseRecOn with
  | nil =>
    simp only [CallEvent.callsOf_nil]
    refine ⟨fun _ m n _ h0 => ?_, fun _ => rfl⟩
    exact Nat.pos_of_ne_zero fun h => h0 (UInt32.toNat.inj h)
  | append_singleton past e ih =>
    rw [reason_concat_eq_none hf, ih]
    constructor
    · rintro ⟨hlt, hn⟩ m n hl h0
      have hm := hlt m n hl h0
      rw [CallEvent.callsOf_concat]
      by_cases he : e.reaches m
      · have hk : CallEvent.callsOf m past + 1 ≠ n.toNat := fun hk => hn m ⟨n, hl, he, hk⟩
        rw [if_pos he]
        omega
      · rw [if_neg he]
        exact hm
    · intro hlt
      constructor
      · intro m n hl h0
        have hm := hlt m n hl h0
        rw [CallEvent.callsOf_concat] at hm
        omega
      · rintro m ⟨n, hl, he, hk⟩
        have h0 : n ≠ 0 := by
          rintro rfl
          exact absurd hk (Nat.succ_ne_zero _)
        have hm := hlt m n hl h0
        rw [CallEvent.callsOf_concat, if_pos he] at hm
        omega

/-- The reason of the stop is the first limit that was used up. -/
theorem reason_after_eq_some {t : ServiceTable} (hf : t.Fresh) (past : List CallEvent)
    (q : StopReason) :
    (t.after {} past).2.reason = some q ↔
      ∃ before e later m, past = before ++ e :: later ∧ (t.after {} before).2.reason = none ∧
        t.UsesUp before e m ∧ q = .replyLimit m := by
  induction past using List.reverseRecOn with
  | nil =>
    refine ⟨fun h => (nomatch h), ?_⟩
    rintro ⟨before, e, later, m, h, -⟩
    simp at h
  | append_singleton past e ih =>
    rw [reason_concat_eq_some hf, ih]
    constructor
    · rintro (⟨before, e', later, m, rfl, hrest⟩ | ⟨hnone, m, hm, hq⟩)
      · exact ⟨before, e', later ++ [e], m, by simp, hrest⟩
      · exact ⟨past, e, [], m, rfl, hnone, hm, hq⟩
    · rintro ⟨before, e', later, m, hsplit, hnone, hm, hq⟩
      -- The deciding call is the last one, or it was there before.
      rcases List.eq_nil_or_concat later with rfl | ⟨init, last, rfl⟩
      · obtain ⟨rfl, hlast⟩ := List.append_inj' hsplit rfl
        cases hlast
        exact .inr ⟨hnone, m, hm, hq⟩
      · rw [List.concat_eq_append, ← List.cons_append, ← List.append_assoc] at hsplit
        obtain ⟨hinit, -⟩ := List.append_inj' hsplit rfl
        exact .inl ⟨before, e', init, m, hinit, hnone, hm, hq⟩

/-- Whatever calls a table has served, the next call that reaches a handler with limit `n` is
acknowledged if it is the n-th at most and withheld otherwise. The stop is given by the first call
that uses up a limit, for this reason and no other, and a limit of zero never gives it. Calls that
do not reach a handler change nothing of it. -/
theorem reply_limits (t : ServiceTable) (hf : t.Fresh) (past : List CallEvent) :
    let s := t.after {} past
    (∀ e m n p, t.limit? m = some n → t.profile? m = some p → e.reaches m →
      (s.1.take s.2 e).response =
        if CallEvent.callsOf m past + 1 ≤ n.toNat then .reply (p.reply m) else .withhold) ∧
    (s.2.reason = none ↔
      ∀ m n, t.limit? m = some n → n ≠ 0 → CallEvent.callsOf m past < n.toNat) ∧
    (∀ q, s.2.reason = some q ↔
      ∃ before e later m, past = before ++ e :: later ∧ (t.after {} before).2.reason = none ∧
        t.UsesUp before e m ∧ q = .replyLimit m) ∧
    (∀ later q, s.2.reason = some q → (t.after {} (past ++ later)).2.reason = some q) ∧
    (∀ e m, t.limit? m = some 0 → e.reaches m →
      (s.1.take s.2 e).response = .withhold ∧ (s.1.take s.2 e).stop = s.2) ∧
    (∀ e m, ¬ e.reaches m → (s.1.take s.2 e).table.get? m = s.1.get? m) ∧
    (∀ m r, r.method ≠ m → (s.1.hand s.2 m r).response = .unimplemented r.method ∧
      (s.1.hand s.2 m r).stop = s.2 ∧ ∀ n, (s.1.hand s.2 m r).table.get? n = s.1.get? n) := by
  intro s
  refine ⟨?_, reason_after_eq_none hf past, reason_after_eq_some hf past, ?_, ?_, ?_, ?_⟩
  · intro e m n p hl hp he
    exact (take_after hf {} past hl hp he).1
  · intro later q hq
    obtain ⟨before, e, rest, m, hsplit, hrest⟩ := (reason_after_eq_some hf past q).mp hq
    apply (reason_after_eq_some hf (past ++ later) q).mpr
    exact ⟨before, e, rest ++ later, m, by simp [hsplit], hrest⟩
  · intro e m hl he
    obtain ⟨c, hc, -⟩ := Option.map_eq_some_iff.mp hl
    obtain ⟨p, hp⟩ := profile?_of_counter hc
    obtain ⟨hresponse, hstop⟩ := take_after hf {} past hl hp he
    have h0 : UInt32.toNat 0 = 0 := rfl
    rw [h0, if_neg (Nat.not_succ_le_zero _)] at hresponse
    rw [h0, if_neg (Nat.succ_ne_zero _)] at hstop
    exact ⟨hresponse, hstop⟩
  · intro e m he
    exact get?_take_of_not_reaches s.1 s.2 he
  · intro m r hr
    exact hand_of_method_ne s.1 s.2 hr

/-- Two Tells and one Heartbeat are replied to, and every Greet. -/
def threeReplies : ServiceTable :=
  let me : Profile := ⟨"me", "me", ⟨"host", 1⟩, 0⟩
  .ofHandlers [⟨.tell, .counting 2, me, none, 0⟩, ⟨.heartbeat, .counting 1, me, none, 0⟩,
    ⟨.greet, .always, me, none, 0⟩]

theorem fresh_threeReplies : threeReplies.Fresh := by
  intro m c hc
  cases m <;> cases hc <;> rfl

/-- The second Tell gives the stop, which the Heartbeat after it does not change, and a third Tell
is withheld. -/
theorem threeReplies_twoTells :
    let tell : CallEvent := .dispatched (.tell ⟨"a", "b", ⟨1⟩, ⟨0⟩⟩)
    let past := [tell, tell, .dispatched (.heartbeat "a")]
    let s := threeReplies.after {} past
    s.2.reason = some (.replyLimit .tell) ∧ (s.1.take s.2 tell).response = .withhold := by
  intro tell past s
  obtain ⟨hresponse, -, hreason, -⟩ := reply_limits threeReplies fresh_threeReplies past
  constructor
  · apply (hreason _).mpr
    exact ⟨[tell], tell, [.dispatched (.heartbeat "a")], .tell, rfl, rfl, ⟨2, rfl, rfl, rfl⟩, rfl⟩
  · exact hresponse tell .tell 2 ⟨"me", "me", ⟨"host", 1⟩, 0⟩ rfl rfl rfl

end ServiceTable
end ScriptedPeer
