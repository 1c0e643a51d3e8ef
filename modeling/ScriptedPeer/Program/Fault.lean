import ScriptedPeer.Fault

/-!
# Faults of the program

Why the program ends without a report. The exit code tells apart what was wrong with the input, when
nothing has been started, from what went wrong afterwards.
-/

namespace ScriptedPeer

inductive ProgramFault where
  | run (fault : RunFault)
  | settings (why : String)
  /-- The settings file is no document, or its values are none of settings. -/
  | notSettings
  /-- Any other failure of the system. No stage of the program comes to it. -/
  | io (why : String)
  | signal (why : String)
  deriving DecidableEq, Repr

/-- The signals of the system that ask the program to stop. -/
inductive SystemSignal where
  | terminate
  | interrupt
  deriving DecidableEq, Repr

def SystemSignal.name : SystemSignal → String
  | terminate => "SIGTERM"
  | interrupt => "SIGINT"

namespace ProgramFault

/-- The fault when a signal cannot be listened for. -/
def unregistered (s : SystemSignal) (why : String) : ProgramFault :=
  .signal s!"Failed to register {s.name}: {why}"

def message : ProgramFault → String
  | run fault => fault.message
  | settings why => "Configuration error: " ++ why
  | notSettings => "TOML parsing error"
  | io why => "IO error: " ++ why
  | signal why => "Signal handling error: " ++ why

/-- Whether the input was at fault. -/
def isConfiguration : ProgramFault → Bool
  | run fault => fault.isConfiguration
  | settings _ | notSettings => true
  | io _ | signal _ => false

end ProgramFault

/-! ## Exit codes -/

namespace ExitCode

def success : UInt8 := 0
def failure : UInt8 := 1
def badInput : UInt8 := 2

/-- The exit code for an outcome of the whole program. -/
def of {α : Type} : Except ProgramFault α → UInt8
  | .ok _ => success
  | .error fault => if fault.isConfiguration then badInput else failure

theorem of_eq_success {α : Type} {r : Except ProgramFault α} :
    of r = success ↔ ∃ a, r = .ok a := by
  cases r with
  | ok a => simp [of]
  | error fault => cases h : fault.isConfiguration <;> simp [of, h, success, badInput, failure]

end ExitCode
end ScriptedPeer
