import ScriptedPeer.ServiceTable

/-!
# Rosters

All handlers that were ever registered with a service table, in order. The last one of a method is
the one that serves it; the others can still be given calls by hand.
-/

namespace ScriptedPeer

structure Roster where
  handlers : List Handler
  deriving DecidableEq, Repr

namespace Roster

def table (r : Roster) : ServiceTable := .ofHandlers r.handlers

/-- The place of the last handler of a method. -/
def placeIn (m : Method) : List Handler → Option Nat
  | [] => none
  | h :: rest => match placeIn m rest with
    | some n => some (n + 1)
    | none => if h.method = m then some 0 else none

def place? (r : Roster) (m : Method) : Option Nat := placeIn m r.handlers

structure Outcome where
  response : Response
  roster : Roster
  stop : StopSignal
  fired : Bool
  deriving DecidableEq, Repr

/-- Hands the call to handler `n`. -/
def handTo (r : Roster) (n : Nat) (stop : StopSignal) (q : Request) : Option Outcome :=
  r.handlers[n]?.map fun h =>
    let done := h.handle stop q
    ⟨done.response, ⟨r.handlers.set n done.handler⟩, done.stop, done.fired⟩

/-- Routes the call through the service table. -/
def dispatch (r : Roster) (stop : StopSignal) (q : Request) : Outcome :=
  let done := r.table.dispatch stop q
  let handlers := match r.place? q.method, done.table.get? q.method with
    | some n, some h => r.handlers.set n h
    | _, _ => r.handlers
  ⟨done.response, ⟨handlers⟩, done.stop, done.fired⟩

end Roster
end ScriptedPeer
