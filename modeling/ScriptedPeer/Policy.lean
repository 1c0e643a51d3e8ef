import ScriptedPeer.Sequence

/-!
# Policies

Small memories that answer whether to act on an event: a counter that runs out, one that acts on
every n-th event, and a set of the sequence numbers seen so far. Each use of a policy gives its
answer and the policy as it is afterwards.
-/

namespace ScriptedPeer

inductive CounterDecision where
  | act
  /-- This very event has used up the limit. -/
  | limitReached
  /-- An earlier event had used up the limit. -/
  | exhausted
  deriving DecidableEq, Repr

namespace CounterDecision

def isAct (d : CounterDecision) : Bool := d == .act

/-- Nothing is left after this event. -/
def isExhausted (d : CounterDecision) : Bool := !d.isAct

def name : CounterDecision → String
  | act => "Act"
  | limitReached => "LimitReached"
  | exhausted => "Exhausted"

theorem isExhausted_iff {d : CounterDecision} : d.isExhausted = true ↔ d ≠ .act := by
  cases d <;> decide

end CounterDecision

/-- Counts events up to a limit and never beyond it, so the word cannot overflow. -/
structure BoundedCounter where
  limit : UInt32
  count : UInt32 := 0
  deriving DecidableEq, Repr

namespace BoundedCounter

def check (c : BoundedCounter) : CounterDecision × BoundedCounter :=
  if c.count < c.limit then
    let next := c.count + 1
    (if next < c.limit then .act else .limitReached, { c with count := next })
  else (.exhausted, c)

def decide (c : BoundedCounter) : Bool × BoundedCounter :=
  let (decision, next) := c.check
  (decision.isAct, next)

def isExhausted (c : BoundedCounter) : Bool := c.limit ≤ c.count

@[simp] theorem limit_check (c : BoundedCounter) : c.check.2.limit = c.limit := by
  simp only [check]; split <;> rfl

end BoundedCounter

/-- Acts on the events numbered n, 2n, 3n and so on. A count of 64 bits begins again after 2 ^ 64
events. No run lives to see that, so it is left out, and these counts are numbers that only grow. -/
structure EveryNth where
  period : Nat
  count : Nat := 0
  deriving DecidableEq, Repr

namespace EveryNth

/-- A period of zero is taken as one. -/
def ofPeriod (n : UInt32) : EveryNth := { period := max n.toNat 1 }

def decide (e : EveryNth) : Bool × EveryNth :=
  let count := e.count + 1
  (count % e.period == 0, { e with count })

@[simp] theorem count_decide (e : EveryNth) : e.decide.2.count = e.count + 1 := rfl
@[simp] theorem period_decide (e : EveryNth) : e.decide.2.period = e.period := rfl

end EveryNth

/-- The sequence numbers seen so far, each once. -/
structure SeenNumbers where
  numbers : List SequenceNumber := []
  deriving DecidableEq, Repr

namespace SeenNumbers

instance : Membership SequenceNumber SeenNumbers := ⟨fun s n => n ∈ s.numbers⟩

def contains (s : SeenNumbers) (n : SequenceNumber) : Bool := s.numbers.contains n

/-- Whether the number is seen for the first time, and the set with it. -/
def observe (s : SeenNumbers) (n : SequenceNumber) : Bool × SeenNumbers :=
  if s.contains n then (false, s) else (true, ⟨n :: s.numbers⟩)

def size (s : SeenNumbers) : Nat := s.numbers.length

theorem mem_def {s : SeenNumbers} {n : SequenceNumber} : n ∈ s ↔ n ∈ s.numbers := Iff.rfl

instance (s : SeenNumbers) (n : SequenceNumber) : Decidable (n ∈ s) :=
  inferInstanceAs (Decidable (n ∈ s.numbers))

theorem observe_of_mem {s : SeenNumbers} {n : SequenceNumber} (h : n ∈ s) :
    s.observe n = (false, s) := by
  simp [observe, contains, mem_def.mp h]

theorem observe_of_not_mem {s : SeenNumbers} {n : SequenceNumber} (h : n ∉ s) :
    s.observe n = (true, ⟨n :: s.numbers⟩) := by
  simp [observe, contains, mt mem_def.mpr h]

theorem mem_observe (s : SeenNumbers) (m n : SequenceNumber) :
    m ∈ (s.observe n).2 ↔ m = n ∨ m ∈ s := by
  by_cases h : n ∈ s
  · rw [observe_of_mem h]
    exact ⟨Or.inr, fun | .inl e => e ▸ h | .inr e => e⟩
  · rw [observe_of_not_mem h]
    exact List.mem_cons

end SeenNumbers
end ScriptedPeer
