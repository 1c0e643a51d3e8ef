/-!
# Tickers

A ticker is due at once when it is started and then once an interval. Time is counted in
milliseconds. A tick that is taken a little late leaves the schedule as it was, so a loop that was
held up can catch up; one that is taken later than the tolerance starts the schedule anew.
-/

namespace ScriptedPeer

structure Ticker where
  interval : Nat
  /-- When the next tick is due. -/
  deadline : Nat := 0
  deriving DecidableEq, Repr

namespace Ticker

/-- By how much a tick may be late without moving those after it. -/
def tolerance : Nat := 5

def start (t : Ticker) (now : Nat) : Ticker := { t with deadline := now }

def isDue (t : Ticker) (now : Nat) : Bool := t.deadline ≤ now

/-- The ticker after its due tick has been taken. -/
def take (t : Ticker) (now : Nat) : Ticker :=
  let base := if t.deadline + tolerance < now then now else t.deadline
  { t with deadline := base + t.interval }

@[simp] theorem interval_take (t : Ticker) (now : Nat) : (t.take now).interval = t.interval := rfl

theorem deadline_take_of_le {t : Ticker} {now : Nat} (h : now ≤ t.deadline + tolerance) :
    (t.take now).deadline = t.deadline + t.interval := by
  simp [take, Nat.not_lt.mpr h]

theorem deadline_take_of_lt {t : Ticker} {now : Nat} (h : t.deadline + tolerance < now) :
    (t.take now).deadline = now + t.interval := by
  simp [take, h]

/-- A tick that is taken moves the deadline by an interval at least. -/
theorem deadline_add_interval_le_take (t : Ticker) (now : Nat) :
    t.deadline + t.interval ≤ (t.take now).deadline := by
  simp only [take]; split <;> omega

end Ticker
end ScriptedPeer
