import ScriptedPeer.Rehearsal.Turn

/-!
# The clock of a rehearsal

A rehearsal has a clock of its own, which stands still while anything can be done and then jumps to
the next time at which something is due. `pass` lets time pass up to a limit, and `advanceTo`
includes the limit.
-/

namespace ScriptedPeer.Rehearsal

/-- The next time at which a loop has something to do. -/
def nextDue (r : Rehearsal) : Option Nat := (r.lifecycle.loops.filterMap RequestLoop.nextDue).min?

/-- Lets time pass up to the last moment before `limit` at which something is due, in at most
`count` jumps. Ends at the stop if it is told to. -/
def passUpTo (limit : Nat) (untilStop : Bool) : Nat → Rehearsal → Rehearsal
  | 0, r => r
  | count + 1, r =>
    if untilStop && r.stopped then r
    else match r.nextDue with
      | none => r
      | some time =>
        if time < limit then
          passUpTo limit untilStop count ({ r with now := time }.work untilStop)
        else r

/-- Every jump is a millisecond at least. -/
def pass (r : Rehearsal) (limit : Nat) (untilStop : Bool) : Rehearsal :=
  passUpTo limit untilStop (limit - r.now) r

/-- Lets time pass up to `limit` and does what is due then. -/
def advanceTo (r : Rehearsal) (limit : Nat) : Rehearsal :=
  { r.settle.pass limit false with now := limit }.settle

end ScriptedPeer.Rehearsal
