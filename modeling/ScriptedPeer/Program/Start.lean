import ScriptedPeer.Launch
import ScriptedPeer.Program.Arguments
import ScriptedPeer.Program.Fault
import ScriptedPeer.Settings.Document

/-!
# Starting the program

From the arguments to a lifecycle that can be started: the settings are loaded from their file if
one is named, and the scenario is looked up. All that can be wrong with the input shows here, before
anything has been bound.
-/

namespace ScriptedPeer

/-- What reading a file comes to: its bytes, or why it cannot be read. -/
abbrev FileContent := Except String ByteArray

/-- The settings in a file. -/
def Settings.load (path : String) (content : FileContent) : Except ProgramFault Settings :=
  let unreadable (why : String) : ProgramFault := .settings s!"Failed to read {path}: {why}"
  match content with
  | .error why => .error (unreadable why)
  | .ok bytes => match String.fromUTF8? bytes with
    | none => .error (unreadable "stream did not contain valid UTF-8")
    | some text => match Settings.parse text with
      | none => .error .notSettings
      | some s => match s.validate with
        | .error fault => .error (.settings fault.message)
        | .ok () => .ok s

structure Program where
  arguments : Arguments
  settings : Settings := {}
  deriving DecidableEq, Repr

namespace Program

def prepare (a : Arguments) (contentOf : String → FileContent) : Except ProgramFault Program :=
  match a.settingsFile with
  | none => .ok { arguments := a }
  | some path => (Settings.load path (contentOf path)).map fun s => { arguments := a, settings := s }

def build (p : Program) (stop : StopSignal) : Except ProgramFault Lifecycle :=
  match p.arguments.scenario with
  | none => .error (.settings "No scenario given")
  | some scenario =>
    let launch : Launch := {
      scenario
      settings := p.settings
      listen := p.arguments.source
      hasPeer := p.arguments.peer.isSome
      stop }
    match launch.build with
    | .ok lifecycle => .ok lifecycle
    | .error fault => .error (.run fault)

/-- What the program is called for. -/
inductive Task where
  | listScenarios
  | printSettings
  | play
  deriving DecidableEq, Repr

/-- Only one thing is done, the list first. -/
def task (a : Arguments) : Task :=
  if a.listScenarios then .listScenarios
  else if a.printSettings then .printSettings
  else .play

end Program
end ScriptedPeer
