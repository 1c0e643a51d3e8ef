import Mathlib.Data.List.Basic
import ScriptedPeer.Proofs.Counter

/-!
# Counters in use

A counter is shared, so whoever asks it to decide on an event, how far it has counted or whether it is
exhausted may find that others have asked before. All that matters is the number of events that it
has decided on by then: neither the order of the questions nor a look at the counter changes an
answer. It says once that the limit has been reached, unless the limit is zero, and never again to
act.
-/

namespace ScriptedPeer.BoundedCounter

/-- What a counter can be asked. -/
inductive Use where
  | check
  | decide
  | count
  | isExhausted
  deriving DecidableEq, Repr

namespace Use

/-- Whether the counter decides on an event. -/
def isEvent : Use → Bool
  | check | decide => true
  | count | isExhausted => false

/-- How many events have been decided on. -/
def events (past : List Use) : Nat := past.countP isEvent

@[simp] theorem events_nil : events [] = 0 := rfl

theorem events_cons (u : Use) (past : List Use) :
    events (u :: past) = events past + if u.isEvent then 1 else 0 := List.countP_cons ..

end Use

/-- The counter once it has been asked. -/
def next (c : BoundedCounter) : Use → BoundedCounter
  | .check => c.check.2
  | .decide => c.decide.2
  | .count | .isExhausted => c

def after (c : BoundedCounter) (past : List Use) : BoundedCounter := past.foldl next c

/-- What was decided on each event. -/
def decisions (c : BoundedCounter) : List Use → List CounterDecision
  | [] => []
  | u :: past => if u.isEvent then c.check.1 :: (c.next u).decisions past else c.decisions past

@[simp] theorem after_nil (c : BoundedCounter) : c.after [] = c := rfl

theorem after_cons (c : BoundedCounter) (u : Use) (past : List Use) :
    c.after (u :: past) = (c.next u).after past := rfl

theorem next_of_event {u : Use} (h : u.isEvent = true) (c : BoundedCounter) :
    c.next u = c.check.2 := by
  cases u <;> first | rfl | cases h

theorem next_of_look {u : Use} (h : u.isEvent = false) (c : BoundedCounter) : c.next u = c := by
  cases u <;> first | rfl | cases h

/-- The decision of a counter that was asked `k` times before. -/
def decisionAfter (limit : UInt32) (k : Nat) : CounterDecision := (askedTimes limit k).check.1

/-- A decision depends on the number of the event and on the limit alone. -/
theorem decisionAfter_eq (limit : UInt32) (k : Nat) :
    decisionAfter limit k = if k + 1 < limit.toNat then .act
      else if k + 1 = limit.toNat then .limitReached else .exhausted := by
  rw [decisionAfter, check_askedTimes]

section

variable (limit : UInt32) (k : Nat)

theorem decisionAfter_eq_act_iff : decisionAfter limit k = .act ↔ k + 1 < limit.toNat := by
  rw [decisionAfter_eq]
  by_cases h : k + 1 < limit.toNat
  · simp [h]
  · by_cases h' : k + 1 = limit.toNat <;> simp [h, h']

theorem decisionAfter_eq_limitReached_iff :
    decisionAfter limit k = .limitReached ↔ k + 1 = limit.toNat := by
  rw [decisionAfter_eq]
  by_cases h : k + 1 < limit.toNat
  · have hne : k + 1 ≠ limit.toNat := by omega
    simp [h, hne]
  · by_cases h' : k + 1 = limit.toNat <;> simp [h, h']

theorem decisionAfter_eq_exhausted_iff :
    decisionAfter limit k = .exhausted ↔ limit.toNat < k + 1 := by
  rw [decisionAfter_eq]
  by_cases h : k + 1 < limit.toNat
  · have hle : ¬ limit.toNat < k + 1 := by omega
    simp [h, hle]
  · by_cases h' : k + 1 = limit.toNat
    · simp [h']
    · have hlt : limit.toNat < k + 1 := by omega
      simp [h, h', hlt]

theorem next_askedTimes (u : Use) :
    (askedTimes limit k).next u = askedTimes limit (k + if u.isEvent then 1 else 0) := by
  cases h : u.isEvent with
  | true => rw [next_of_event h, check_askedTimes, if_pos rfl]
  | false => rw [next_of_look h, if_neg Bool.false_ne_true, Nat.add_zero]

variable (past : List Use)

theorem after_askedTimes :
    (askedTimes limit k).after past = askedTimes limit (k + Use.events past) := by
  induction past generalizing k with
  | nil => rfl
  | cons u past ih =>
    rw [after_cons, next_askedTimes, ih, Use.events_cons, Nat.add_right_comm, Nat.add_assoc]

/-- A counter stands where its events have brought it, whatever came between them. -/
theorem after_eq_askedTimes :
    ({ limit } : BoundedCounter).after past = askedTimes limit (Use.events past) := by
  rw [← askedTimes_zero, after_askedTimes, Nat.zero_add]

theorem decisions_askedTimes :
    (askedTimes limit k).decisions past =
      (List.range' k (Use.events past)).map (decisionAfter limit) := by
  induction past generalizing k with
  | nil => rfl
  | cons u past ih =>
    rw [decisions, Use.events_cons]
    cases h : u.isEvent with
    | true =>
      rw [if_pos rfl, if_pos rfl, next_askedTimes, h, if_pos rfl, ih, List.range'_succ,
        List.map_cons]
      rfl
    | false => rw [if_neg Bool.false_ne_true, if_neg Bool.false_ne_true, ih, Nat.add_zero]

/-- The decisions come in the order of the events, one for each. -/
theorem decisions_eq :
    ({ limit } : BoundedCounter).decisions past =
      (List.range (Use.events past)).map (decisionAfter limit) := by
  rw [← askedTimes_zero, decisions_askedTimes, List.range_eq_range']

end

theorem countP_succ_eq (n k : Nat) :
    (List.range k).countP (fun j => j + 1 = n) = if 1 ≤ n ∧ n ≤ k then 1 else 0 := by
  induction k with
  | zero =>
    rw [if_neg (by omega)]
    rfl
  | succ k ih =>
    rw [List.range_succ, List.countP_append, ih, List.countP_singleton]
    by_cases h : k + 1 = n
    · rw [if_neg (by omega), if_pos (by simpa using h), if_pos (by omega)]
    · have hiff : (1 ≤ n ∧ n ≤ k) ↔ (1 ≤ n ∧ n ≤ k + 1) := by omega
      simp only [hiff, h, decide_false, Bool.false_eq_true, if_false, Nat.add_zero]

/-- The limit is reported once it has been reached, and only once. -/
theorem count_limitReached (limit : UInt32) (past : List Use) :
    (({ limit } : BoundedCounter).decisions past).count .limitReached =
      if 1 ≤ limit.toNat ∧ limit.toNat ≤ Use.events past then 1 else 0 := by
  rw [decisions_eq, List.count, List.countP_map, ← countP_succ_eq]
  congr 1
  funext j
  rw [Function.comp_apply, Bool.eq_iff_iff, beq_iff_eq, decide_eq_true_eq,
    decisionAfter_eq_limitReached_iff]

/-- After the limit no decision is to act. -/
theorem pairwise_decisions (limit : UInt32) (past : List Use) :
    (({ limit } : BoundedCounter).decisions past).Pairwise fun d e => d ≠ .act → e ≠ .act := by
  rw [decisions_eq, List.pairwise_map]
  refine List.pairwise_lt_range.imp fun {i j} hij => mt fun h => ?_
  rw [decisionAfter_eq_act_iff] at h ⊢
  omega

/-- Each event adds the decision on it, and a look at the counter adds none. -/
theorem decisions_concat (limit : UInt32) (past : List Use) (u : Use) :
    ({ limit } : BoundedCounter).decisions (past ++ [u]) =
      ({ limit } : BoundedCounter).decisions past ++
        if u.isEvent then [(({ limit } : BoundedCounter).after past).check.1] else [] := by
  have hevents : Use.events (past ++ [u]) = Use.events past + if u.isEvent then 1 else 0 := by
    rw [Use.events, List.countP_append, List.countP_singleton]
    rfl
  rw [decisions_eq, decisions_eq, after_eq_askedTimes, hevents]
  cases u.isEvent with
  | true =>
    rw [if_pos rfl, if_pos rfl, List.range_succ, List.map_append]
    rfl
  | false => rw [if_neg Bool.false_ne_true, if_neg Bool.false_ne_true, Nat.add_zero, List.append_nil]

/-- A counter is exhausted from its limit on. -/
theorem isExhausted_askedTimes (limit : UInt32) (k : Nat) :
    (askedTimes limit k).isExhausted = true ↔ limit.toNat ≤ k := by
  rw [isExhausted, decide_eq_true_iff, UInt32.le_iff_toNat_le, toNat_count_askedTimes]
  change limit.toNat ≤ min k limit.toNat ↔ _
  omega

/-- A counter that has decided on `k` events, whatever else it was asked in between, stands at `k` or
at its limit. How it decides on the next event depends on the number of this event alone. An event is
counted by one as long as the counter is not exhausted, so that the count never wraps around. Of all
decisions just one says that the limit has been reached, once it has, and none after it is to act. -/
theorem decides_by_number (limit : UInt32) (past : List Use) :
    let k := Use.events past
    let c := ({ limit } : BoundedCounter).after past
    let made := ({ limit } : BoundedCounter).decisions past
    c.count.toNat = min k limit.toNat ∧
    (c.check.1 = .act ↔ k + 1 < limit.toNat) ∧
    (c.check.1 = .limitReached ↔ k + 1 = limit.toNat) ∧
    (c.check.1 = .exhausted ↔ limit.toNat < k + 1) ∧
    (c.decide.1 = true ↔ c.check.1 = .act) ∧ c.decide.2 = c.check.2 ∧
    (c.isExhausted = true ↔ limit.toNat ≤ k) ∧
    c.check.2.count.toNat = c.count.toNat + (if c.check.1 = .exhausted then 0 else 1) ∧
    (∀ u, ({ limit } : BoundedCounter).decisions (past ++ [u]) =
      made ++ if u.isEvent then [c.check.1] else []) ∧
    made.length = k ∧
    made.count .limitReached = (if 1 ≤ limit.toNat ∧ limit.toNat ≤ k then 1 else 0) ∧
    made.Pairwise fun d e => d ≠ .act → e ≠ .act := by
  intro k c made
  have hc : c = askedTimes limit k := after_eq_askedTimes limit past
  have hexhausted : c.check.1 = .exhausted ↔ limit.toNat < k + 1 := by
    rw [hc]
    exact decisionAfter_eq_exhausted_iff limit k
  refine ⟨?_, ?_, ?_, hexhausted, ?_, rfl, ?_, ?_, decisions_concat limit past, ?_,
    count_limitReached limit past, pairwise_decisions limit past⟩
  · rw [hc, toNat_count_askedTimes]
  · rw [hc]
    exact decisionAfter_eq_act_iff limit k
  · rw [hc]
    exact decisionAfter_eq_limitReached_iff limit k
  · change (c.check.1 == .act) = true ↔ _
    exact beq_iff_eq
  · rw [hc, isExhausted_askedTimes]
  · have hcount : c.check.2.count.toNat = min (k + 1) limit.toNat := by
      rw [hc, check_askedTimes, toNat_count_askedTimes]
    simp only [hcount, hexhausted]
    rw [hc, toNat_count_askedTimes]
    split <;> omega
  · change (({ limit } : BoundedCounter).decisions past).length = k
    rw [decisions_eq, List.length_map, List.length_range]

end ScriptedPeer.BoundedCounter
