import ScriptedPeer.Program.Start
import ScriptedPeer.Rehearsal.Play

/-!
# Rehearsing the whole program

The program from its arguments to its exit code, in a world of its own. A program that goes on for
longer than anybody waits for it has no exit code.
-/

namespace ScriptedPeer

/-- What surrounds a rehearsal of the program. -/
structure World where
  contentOf : String → FileContent
  network : Network
  peer : Peer := .absent
  /-- Why a signal cannot be listened for, if it cannot. -/
  signalFault : SystemSignal → Option String := fun _ => none
  /-- The stop that is given before the start. -/
  stop : StopSignal := {}
  /-- The stop is given from outside as soon as the program runs. -/
  signalled : Bool := false
  /-- How long its end is waited for. -/
  patience : Nat

/-- What a signal makes of a rehearsal that has just been started, if one comes. -/
def World.signal (w : World) (r : Rehearsal) : Rehearsal :=
  if w.signalled then (r.trigger (some .external)).settle else r

namespace Program

/-- Listens for the signals, one after the other. -/
def watch (faultOf : SystemSignal → Option String) : Except ProgramFault Unit :=
  [SystemSignal.terminate, SystemSignal.interrupt].forM fun s => match faultOf s with
    | some why => .error (.unregistered s why)
    | none => .ok ()

/-- Listens for the signals and starts the scenario. -/
def start (w : World) (lifecycle : Lifecycle) : Except ProgramFault Rehearsal := do
  watch w.signalFault
  let (r, fault) := (Rehearsal.new lifecycle w.network w.peer false).start
  match fault with
  | some fault => .error (.run fault)
  | none => return w.signal r

/-- Plays the scenario: a fault of the start, or the report if there is one by then. -/
def play (w : World) (lifecycle : Lifecycle) : Option (Except ProgramFault RunReport) :=
  match start w lifecycle with
  | .error fault => some (.error fault)
  | .ok r => (r.wait w.patience).2.map .ok

/-- What the program comes to, if it has come to an end by then. -/
def outcome (w : World) (a : Arguments) : Option (Except ProgramFault RunReport) :=
  match prepare a w.contentOf >>= (·.build w.stop) with
  | .error fault => some (.error fault)
  | .ok lifecycle => play w lifecycle

/-- The exit code, if there is one by then, and the text that is printed. -/
def rehearse (w : World) (ss : List String) : Option UInt8 × String :=
  match Arguments.parse ss with
  | .error refusal => (some refusal.exitCode, "")
  | .ok a => match task a with
    | .listScenarios => (some ExitCode.success, Catalog.table)
    | .printSettings => (some ExitCode.success, Settings.template)
    | .play => ((outcome w a).map ExitCode.of, "")

end Program
end ScriptedPeer
