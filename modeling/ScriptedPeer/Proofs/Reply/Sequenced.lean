import Mathlib.Data.Finset.Card
import ScriptedPeer.Handler

/-!
# Repeated calls

A sequenced handler tells calls whose key is new from those whose key came before. What it has seen
is exactly what the calls so far have carried, so the answer to a call depends on the calls before
it, and the number of keys that were new does not depend on the order of the calls at all.
-/

namespace ScriptedPeer

/-- Calls in the order in which a handler gets them. Each finds the stop signal in some state, since
others may give it meanwhile. -/
abbrev Calls := List (Request × StopSignal)

namespace Calls

def requests (calls : Calls) : List Request := calls.map Prod.fst

/-- The keys that the calls carry, once for each call. -/
def keys (calls : Calls) : List SequenceNumber := calls.requests.filterMap Request.key?

theorem mem_keys_cons {r : Request} {stop : StopSignal} {calls : Calls} {key : SequenceNumber} :
    key ∈ keys ((r, stop) :: calls) ↔ r.key? = some key ∨ key ∈ keys calls := by
  simp [keys, requests]

theorem perm_keys {calls others : Calls} (h : others.requests.Perm calls.requests) :
    others.keys.Perm calls.keys := h.filterMap _

end Calls

/-- A call with its response, and whether its key was new to the handler. -/
structure Answered where
  request : Request
  response : Response
  isFirst : Bool
  deriving DecidableEq, Repr

namespace Handler

variable {first duplicate : Verdict}

/-- The keys the handler has seen. -/
def seen (h : Handler) : SeenNumbers :=
  match h.policy with
  | .bySequence seen .. => seen
  | .always | .countThenStop _ => {}

/-- Whether the handler would answer the call with the first of its two variants. -/
def isFirst (h : Handler) (r : Request) : Bool :=
  match h.policy, r.key? with
  | .bySequence seen .., some key => (seen.observe key).1
  | _, _ => false

/-- The handler after some calls. -/
def after (h : Handler) : Calls → Handler
  | [] => h
  | (r, stop) :: rest => (h.handle stop r).handler.after rest

/-- What the handler answers to some calls. -/
def answered (h : Handler) : Calls → List Answered
  | [] => []
  | (r, stop) :: rest =>
    ⟨r, (h.handle stop r).response, h.isFirst r⟩ :: (h.handle stop r).handler.answered rest

/-- The handler answers new keys with one variant, and those it has seen with another. -/
def Sequences (h : Handler) (first duplicate : Verdict) : Prop :=
  h.policy = .bySequence h.seen first duplicate

theorem sequences_of_sequenced {h : Handler} (hp : h.policy = .sequenced first duplicate) :
    h.Sequences first duplicate ∧ h.seen = {} := by
  have hs : h.seen = {} := by simp only [seen, hp, ReplyPolicy.sequenced]
  exact ⟨by rw [Sequences, hs, hp, ReplyPolicy.sequenced], hs⟩

/-- A call is answered as the first just if it has a key that was not seen. -/
theorem isFirst_iff {h : Handler} (hs : h.Sequences first duplicate) {r : Request} :
    h.isFirst r = true ↔ ∃ key, r.key? = some key ∧ key ∉ h.seen := by
  unfold isFirst
  rw [hs]
  cases hk : r.key? with
  | none => simp
  | some key =>
    by_cases hm : key ∈ h.seen
    · simp [SeenNumbers.observe_of_mem hm, hm]
    · simp [SeenNumbers.observe_of_not_mem hm, hm]

theorem decide_of_keyless {h : Handler} (hs : h.Sequences first duplicate) {r : Request}
    (hk : r.key? = none) (stop : StopSignal) :
    h.decide stop r = (.acknowledge, .bySequence h.seen first duplicate, stop) := by
  unfold decide
  rw [hs]
  simp only [hk]

/-- A call with a key is answered by whether it was seen, and it is seen from then on. -/
theorem decide_of_key {h : Handler} (hs : h.Sequences first duplicate) {r : Request}
    {key : SequenceNumber} (hk : r.key? = some key) (stop : StopSignal) :
    h.decide stop r = (if key ∈ h.seen then duplicate else first,
      .bySequence (h.seen.observe key).2 first duplicate, stop) := by
  unfold decide
  rw [hs]
  simp only [hk]
  by_cases hm : key ∈ h.seen
  · simp [SeenNumbers.observe_of_mem hm, hm]
  · simp [SeenNumbers.observe_of_not_mem hm, hm]

/-- A call without a key is acknowledged and leaves everything that was seen as it was. -/
theorem handle_of_keyless {h : Handler} (hs : h.Sequences first duplicate) {r : Request}
    (hm : r.method = h.method) (hk : r.key? = none) (stop : StopSignal) :
    (h.handle stop r).response = .reply (h.profile.reply h.method) ∧
      (h.handle stop r).handler.policy = h.policy ∧ (h.handle stop r).handler.seen = h.seen := by
  rw [handle_of_method_eq hm, decide_of_keyless hs hk]
  exact ⟨rfl, hs.symm, rfl⟩

/-- A call with a key is answered by whether the key was seen before, and from then on it was. -/
theorem handle_of_key {h : Handler} (hs : h.Sequences first duplicate) {r : Request}
    (hm : r.method = h.method) {key : SequenceNumber} (hk : r.key? = some key)
    (stop : StopSignal) :
    (h.handle stop r).response = h.respond (if key ∈ h.seen then duplicate else first) ∧
      (h.handle stop r).handler.seen = (h.seen.observe key).2 := by
  rw [handle_of_method_eq hm, decide_of_key hs hk]
  exact ⟨rfl, rfl⟩

/-- A handler goes on telling first calls from repeated ones as it does. -/
theorem sequences_handle {h : Handler} (hs : h.Sequences first duplicate) (stop : StopSignal)
    (r : Request) : (h.handle stop r).handler.Sequences first duplicate := by
  by_cases hm : r.method = h.method
  · rw [handle_of_method_eq hm]
    cases hk : r.key? with
    | none =>
      rw [decide_of_keyless hs hk]
      rfl
    | some key =>
      rw [decide_of_key hs hk]
      rfl
  · rw [handle_of_method_ne hm]
    exact hs

/-- Of all keys only that of the call comes to be seen. -/
theorem mem_seen_handle {h : Handler} (hs : h.Sequences first duplicate) {r : Request}
    (hm : r.method = h.method) (stop : StopSignal) (key : SequenceNumber) :
    key ∈ (h.handle stop r).handler.seen ↔ r.key? = some key ∨ key ∈ h.seen := by
  cases hk : r.key? with
  | none => simp [(handle_of_keyless hs hm hk stop).2.2]
  | some new => simp [(handle_of_key hs hm hk stop).2, SeenNumbers.mem_observe, eq_comm]

/-- Nothing makes a handler forget a key, whatever its policy and whatever the call. -/
theorem mem_seen_handle_of_mem (h : Handler) (stop : StopSignal) (r : Request)
    {key : SequenceNumber} (hk : key ∈ h.seen) : key ∈ (h.handle stop r).handler.seen := by
  by_cases hm : r.method = h.method
  · cases hp : h.policy with
    | always => simp [seen, hp, SeenNumbers.mem_def] at hk
    | countThenStop counter => simp [seen, hp, SeenNumbers.mem_def] at hk
    | bySequence numbers first duplicate =>
      have hs : h.Sequences first duplicate := by simp only [Sequences, seen, hp]
      exact (mem_seen_handle hs hm stop key).mpr (.inr hk)
  · rw [handle_of_method_ne hm]
    exact hk

theorem respond_handle (h : Handler) (stop : StopSignal) (r : Request) (v : Verdict) :
    (h.handle stop r).handler.respond v = h.respond v := by
  cases v <;> simp [respond]

theorem methods_handle {h : Handler} {r : Request} {stop : StopSignal} {rest : Calls}
    (hm : ∀ q ∈ Calls.requests ((r, stop) :: rest), q.method = h.method) :
    ∀ q ∈ Calls.requests rest, q.method = (h.handle stop r).handler.method := by
  intro q hq
  rw [method_handle]
  exact hm q (.tail _ hq)

@[simp] theorem method_after (h : Handler) (calls : Calls) :
    (h.after calls).method = h.method := by
  induction calls generalizing h with
  | nil => rfl
  | cons c rest ih => rw [after, ih, method_handle]

@[simp] theorem profile_after (h : Handler) (calls : Calls) :
    (h.after calls).profile = h.profile := by
  induction calls generalizing h with
  | nil => rfl
  | cons c rest ih => rw [after, ih, profile_handle]

theorem respond_after (h : Handler) (calls : Calls) (v : Verdict) :
    (h.after calls).respond v = h.respond v := by
  cases v <;> simp [respond]

theorem sequences_after {h : Handler} (hs : h.Sequences first duplicate) (calls : Calls) :
    (h.after calls).Sequences first duplicate := by
  induction calls generalizing h with
  | nil => exact hs
  | cons c rest ih => exact ih (sequences_handle hs c.2 c.1)

/-- What a handler has seen after some calls is what it had seen before and what they carried. -/
theorem mem_seen_after {h : Handler} (hs : h.Sequences first duplicate) {calls : Calls}
    (hm : ∀ r ∈ calls.requests, r.method = h.method) (key : SequenceNumber) :
    key ∈ (h.after calls).seen ↔ key ∈ h.seen ∨ key ∈ calls.keys := by
  induction calls generalizing h with
  | nil => simp [after, Calls.keys, Calls.requests]
  | cons c rest ih =>
    obtain ⟨r, stop⟩ := c
    have hr : r.method = h.method := hm r (.head _)
    have hrest := methods_handle hm
    rw [after, ih (sequences_handle hs stop r) hrest, mem_seen_handle hs hr, Calls.mem_keys_cons]
    exact or_assoc.trans or_left_comm

/-- Which calls have a new key shows in the responses. -/
theorem response_answered {h : Handler} (hs : h.Sequences first duplicate) {calls : Calls}
    (hm : ∀ r ∈ calls.requests, r.method = h.method) (a : Answered) (ha : a ∈ h.answered calls)
    (hk : a.request.key?.isSome) :
    a.response = h.respond (if a.isFirst then first else duplicate) := by
  induction calls generalizing h with
  | nil => cases ha
  | cons c rest ih =>
    obtain ⟨r, stop⟩ := c
    have hr : r.method = h.method := hm r (.head _)
    rcases List.mem_cons.mp ha with rfl | ha
    · obtain ⟨key, hkey⟩ := Option.isSome_iff_exists.mp hk
      have hf : h.isFirst r = true ↔ key ∉ h.seen := by
        simp only [isFirst_iff hs, hkey, Option.some.injEq, exists_eq_left']
      simp only [(handle_of_key hs hr hkey stop).1, hf, ite_not]
    · have hi := ih (sequences_handle hs stop r) (methods_handle hm) ha
      rw [hi, respond_handle]

/-- A call that is answered as new has a key. -/
theorem key_of_isFirst (h : Handler) (calls : Calls) (a : Answered) (ha : a ∈ h.answered calls)
    (hf : a.isFirst = true) : a.request.key?.isSome := by
  induction calls generalizing h with
  | nil => cases ha
  | cons c rest ih =>
    rcases List.mem_cons.mp ha with rfl | ha
    · cases hk : c.1.key? with
      | none => simp [isFirst, hk] at hf
      | some key => rfl
    · exact ih _ ha

/-- The keys of the calls that are answered as new. -/
def newKeys (h : Handler) (calls : Calls) : List SequenceNumber :=
  ((h.answered calls).filter (·.isFirst)).filterMap (·.request.key?)

theorem newKeys_cons_of_key (h : Handler) {r : Request} {key : SequenceNumber}
    (hk : r.key? = some key) (hf : h.isFirst r = true) (stop : StopSignal) (rest : Calls) :
    h.newKeys ((r, stop) :: rest) = key :: (h.handle stop r).handler.newKeys rest := by
  simp [newKeys, answered, hf, hk]

theorem newKeys_cons_of_not (h : Handler) {r : Request} (hf : h.isFirst r ≠ true)
    (stop : StopSignal) (rest : Calls) :
    h.newKeys ((r, stop) :: rest) = (h.handle stop r).handler.newKeys rest := by
  simp [newKeys, answered, hf]

/-- The new keys are those that the calls carry and the handler had not seen, each once. -/
theorem newKeys_spec {h : Handler} (hs : h.Sequences first duplicate) {calls : Calls}
    (hm : ∀ r ∈ calls.requests, r.method = h.method) :
    (h.newKeys calls).Nodup ∧ ∀ key, key ∈ h.newKeys calls ↔ key ∈ calls.keys ∧ key ∉ h.seen := by
  induction calls generalizing h with
  | nil => simp [newKeys, answered, Calls.keys, Calls.requests]
  | cons c rest ih =>
    obtain ⟨r, stop⟩ := c
    have hr : r.method = h.method := hm r (.head _)
    obtain ⟨hnodup, hmem⟩ := ih (sequences_handle hs stop r) (methods_handle hm)
    have hseen := mem_seen_handle hs hr stop
    by_cases hf : h.isFirst r = true
    · obtain ⟨new, hk, hn⟩ := (isFirst_iff hs).mp hf
      rw [newKeys_cons_of_key h hk hf]
      -- The handler has seen the key by the time of the later calls, so it is not new again.
      constructor
      · apply List.nodup_cons.mpr
        refine ⟨?_, hnodup⟩
        intro h'
        exact ((hmem new).mp h').2 ((hseen new).mpr (.inl hk))
      · intro key
        rw [List.mem_cons, hmem, hseen, Calls.mem_keys_cons, hk]
        grind
    · have hold : ∀ key, r.key? = some key → key ∈ h.seen := by
        intro key hk
        by_contra hn
        exact hf ((isFirst_iff hs).mpr ⟨key, hk, hn⟩)
      rw [newKeys_cons_of_not h hf]
      refine ⟨hnodup, ?_⟩
      intro key
      rw [hmem, hseen, Calls.mem_keys_cons]
      grind

/-- There are as many new keys as calls that were answered as first. -/
theorem length_newKeys (h : Handler) (calls : Calls) :
    (h.newKeys calls).length = ((h.answered calls).filter (·.isFirst)).length := by
  rw [newKeys, List.length_filterMap_eq_countP, List.countP_eq_length]
  intro a ha
  obtain ⟨ha, hf⟩ := List.mem_filter.mp ha
  exact key_of_isFirst h calls a ha hf

theorem respond_injective (h : Handler) {v w : Verdict} (he : h.respond v = h.respond w) :
    v = w := by
  cases v <;> cases w <;> simp_all [respond]

/-- A key is answered as first as often as it is new. -/
theorem countP_isFirst (h : Handler) (calls : Calls) (key : SequenceNumber) :
    ((h.answered calls).filter (·.isFirst)).countP (·.request.key? = some key) =
      (h.newKeys calls).count key := by
  rw [newKeys, List.count_filterMap]
  exact List.countP_congr fun a _ => by simp

/-- A sequenced handler answers a key with the first variant unless an earlier call has carried it,
acknowledges calls without a key, and forgets nothing. In whatever order the calls come, the first
variant is the answer to each key once. -/
theorem answered_of_sequenced (h : Handler) (first duplicate : Verdict)
    (hp : h.policy = .sequenced first duplicate) (calls : Calls)
    (hm : ∀ r ∈ calls.requests, r.method = h.method) :
    (∀ past r stop later, calls = past ++ (r, stop) :: later →
      let done := (h.after past).handle stop r
      (∀ key, r.key? = some key →
        done.response = h.respond (if key ∈ Calls.keys past then duplicate else first)) ∧
      (r.key? = none → done.response = .reply (h.profile.reply h.method) ∧
        done.handler.policy = (h.after past).policy ∧
        done.handler.seen = (h.after past).seen)) ∧
    (∀ key, key ∈ (h.after calls).seen ↔ key ∈ calls.keys) ∧
    (∀ (g : Handler) stop r key, key ∈ g.seen → key ∈ (g.handle stop r).handler.seen) ∧
    ∀ others : Calls, others.requests.Perm calls.requests →
      let firsts := (h.answered others).filter (·.isFirst)
      firsts.length = calls.keys.toFinset.card ∧
      (∀ key ∈ calls.keys, firsts.countP (·.request.key? = some key) = 1) ∧
      (∀ a ∈ h.answered others, a.request.key?.isSome →
        a.response = h.respond (if a.isFirst then first else duplicate)) ∧
      -- Two different variants can be told apart by the caller.
      (first ≠ duplicate → ∀ a ∈ h.answered others, a.request.key?.isSome →
        (a.isFirst ↔ a.response = h.respond first)) := by
  obtain ⟨hs, hempty⟩ := sequences_of_sequenced hp
  have hnew : ∀ key, key ∉ h.seen := by simp [hempty, SeenNumbers.mem_def]
  refine ⟨?_, ?_, fun g stop r key hk => mem_seen_handle_of_mem g stop r hk, ?_⟩
  · intro past r stop later hc done
    have hpast : ∀ q ∈ Calls.requests past, q.method = h.method := by
      intro q hq
      exact hm q (by rw [hc, Calls.requests, List.map_append]; exact List.mem_append_left _ hq)
    have hr : r.method = (h.after past).method := by
      rw [method_after]
      exact hm r (by simp [hc, Calls.requests])
    have hsp := sequences_after hs past
    constructor
    · intro key hk
      have hseen : key ∈ (h.after past).seen ↔ key ∈ Calls.keys past := by
        rw [mem_seen_after hs hpast]
        exact or_iff_right (hnew key)
      simp only [done, (handle_of_key hsp hr hk stop).1, respond_after, hseen]
    · intro hk
      have hdone := handle_of_keyless hsp hr hk stop
      rw [profile_after, method_after] at hdone
      exact hdone
  · intro key
    rw [mem_seen_after hs hm]
    exact or_iff_right (hnew key)
  · intro others hperm firsts
    have hmo : ∀ r ∈ others.requests, r.method = h.method := fun r hr => hm r (hperm.mem_iff.mp hr)
    obtain ⟨hnodup, hmem⟩ := newKeys_spec hs hmo
    have hkeys : ∀ key, key ∈ h.newKeys others ↔ key ∈ calls.keys := by
      intro key
      rw [hmem, (Calls.perm_keys hperm).mem_iff]
      exact and_iff_left (hnew key)
    have hresponse := response_answered hs hmo
    refine ⟨?_, ?_, hresponse, ?_⟩
    · rw [← length_newKeys, ← List.toFinset_card_of_nodup hnodup]
      congr 1
      ext key
      rw [List.mem_toFinset, List.mem_toFinset, hkeys]
    · intro key hk
      rw [countP_isFirst]
      exact List.count_eq_one_of_mem hnodup ((hkeys key).mpr hk)
    · intro hne a ha hk
      rw [hresponse a ha hk]
      constructor
      · intro hf
        rw [if_pos hf]
      · intro he
        by_contra hf
        rw [if_neg hf] at he
        exact hne (respond_injective h he).symm

/-- Replies to new Tells and withholds the reply to repeated ones. -/
def tellOnce : Handler where
  method := .tell
  policy := .sequenced .acknowledge .withhold
  profile := ⟨"me", "me", ⟨"host", 1⟩, 0⟩

def numberedTells (numbers : List SequenceNumber) : Calls :=
  numbers.map fun n => (.tell ⟨"a", "b", n, ⟨0⟩⟩, {})

/-- The third of five Tells with three keys is withheld, and in another order of the five, three
are answered as new again. -/
theorem tellOnce_answers :
    ((tellOnce.after (numberedTells [⟨1⟩, ⟨2⟩])).handle {} (.tell ⟨"a", "b", ⟨1⟩, ⟨0⟩⟩)).response =
        .withhold ∧
      ((tellOnce.answered (numberedTells [⟨2⟩, ⟨1⟩, ⟨2⟩, ⟨1⟩, ⟨3⟩])).filter (·.isFirst)).length =
        3 := by
  have hm : ∀ r ∈ (numberedTells [⟨1⟩, ⟨2⟩, ⟨1⟩, ⟨3⟩, ⟨2⟩]).requests, r.method = tellOnce.method := by
    decide
  obtain ⟨hanswer, -, -, horder⟩ := answered_of_sequenced tellOnce .acknowledge .withhold rfl _ hm
  constructor
  · exact (hanswer (numberedTells [⟨1⟩, ⟨2⟩]) _ {} (numberedTells [⟨3⟩, ⟨2⟩]) rfl).1 ⟨1⟩ rfl
  · have hperm : (numberedTells [⟨2⟩, ⟨1⟩, ⟨2⟩, ⟨1⟩, ⟨3⟩]).requests.Perm
        (numberedTells [⟨1⟩, ⟨2⟩, ⟨1⟩, ⟨3⟩, ⟨2⟩]).requests := by decide
    rw [(horder _ hperm).1]
    decide

end Handler
end ScriptedPeer
