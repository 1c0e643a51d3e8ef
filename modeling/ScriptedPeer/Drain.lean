/-!
# Draining

At shutdown the tasks of a run are awaited one after the other, all of them against one deadline. A
task that ends before the deadline is let finish, however long the ones before it took; a task that
does not is given up.
-/

namespace ScriptedPeer

/-- What becomes of a task that is left to itself. -/
inductive Fate where
  /-- It has ended already. -/
  | ended
  | ends (time : Nat)
  | lasts
  deriving DecidableEq, Repr

/-- How a task goes on that is left to itself: what it is as long as it is not over, when that will
be, and what it is then. -/
structure Course (α : Type) where
  busy : α
  fate : Fate
  ended : α
  deriving DecidableEq, Repr

/-- What a task has come to, whether it is let finish or given up. -/
def Course.outcome {α : Type} (giveUp : α → α) (c : Course α) (late : Bool) : α :=
  if late then giveUp c.busy else c.ended

namespace Drain

/-- The time at which the task is done with, awaited from `now` on, and whether it is given up. -/
def await (deadline now : Nat) : Fate → Nat × Bool
  | .ended => (now, false)
  | .ends time => if time < deadline then (max now time, false) else (max now deadline, true)
  | .lasts => (max now deadline, true)

/-- Awaits the tasks in order. The time afterwards, and for each task whether it is given up. -/
def awaitAll (deadline : Nat) : Nat → List Fate → Nat × List Bool
  | now, [] => (now, [])
  | now, fate :: rest =>
    let (now, late) := await deadline now fate
    let (now, lates) := awaitAll deadline now rest
    (now, late :: lates)

@[simp] theorem length_awaitAll (deadline now : Nat) (fates : List Fate) :
    (awaitAll deadline now fates).2.length = fates.length := by
  induction fates generalizing now with
  | nil => rfl
  | cons f fs ih => simp [awaitAll, ih]

end Drain
end ScriptedPeer
