import ScriptedPeer.Endpoint
import ScriptedPeer.Text.Numeral

/-!
# Arguments

What the program is told when it is called. An option has a value, in the same argument after an
equals sign or in the next one; a switch has none. Options and switches come in any order, each at
most once. A value that stands in an argument of its own is looked at only when the next option or
switch begins or the arguments end, so that an unknown word further on is reported first.
-/

namespace ScriptedPeer

structure Arguments where
  sourceAddress : Option String := none
  sourcePort : Option UInt16 := none
  peerAddress : Option String := none
  peerPort : Option UInt16 := none
  scenario : Option String := none
  settingsFile : Option String := none
  verbose : Bool := false
  listScenarios : Bool := false
  printSettings : Bool := false
  deriving DecidableEq, Repr

namespace Arguments

/-- Why arguments are not accepted. -/
inductive Refusal where
  | missing
  | noPort
  | unknown
  | repeated
  | valueMissing
  | needlessValue
  /-- Help was asked for. -/
  | help
  /-- The version was asked for. -/
  | version
  deriving DecidableEq, Repr

/-- What was asked for is no fault. -/
def Refusal.exitCode : Refusal → UInt8
  | .help | .version => 0
  | .missing | .noPort | .unknown | .repeated | .valueMissing | .needlessValue => 2

inductive ValueOption where
  | sourceAddress
  | sourcePort
  | peerAddress
  | peerPort
  | scenario
  | settingsFile
  deriving DecidableEq, Repr

inductive Switch where
  | verbose
  | listScenarios
  | printSettings
  | help
  | version
  deriving DecidableEq, Repr

inductive Flag where
  | value (o : ValueOption)
  | switch (w : Switch)
  deriving DecidableEq, Repr

/-- Written after two hyphens. -/
def longFlags : List (String × Flag) :=
  [("src-ip-address", .value .sourceAddress),
    ("src-port", .value .sourcePort),
    ("dst-ip-address", .value .peerAddress),
    ("dst-port", .value .peerPort),
    ("scenario", .value .scenario),
    ("config", .value .settingsFile),
    ("verbose", .switch .verbose),
    ("list-scenarios", .switch .listScenarios),
    ("print-config", .switch .printSettings),
    ("help", .switch .help),
    ("version", .switch .version)]

/-- Written after one hyphen, several in one argument. -/
def shortFlags : List (Char × Flag) :=
  [('c', .value .settingsFile), ('v', .switch .verbose), ('h', .switch .help),
    ('V', .switch .version)]

def port (s : String) : Except Refusal UInt16 :=
  match Text.natural? 65535 s.toList with
  | some n => .ok (.ofNat n)
  | none => .error .noPort

/-- A value where none was given before. -/
def once {α : Type} (before : Option α) (value : Except Refusal α) : Except Refusal (Option α) :=
  match before with
  | some _ => .error .repeated
  | none => value.map some

def give (a : Arguments) (o : ValueOption) (s : String) : Except Refusal Arguments := do
  match o with
  | .sourceAddress => return { a with sourceAddress := ← once a.sourceAddress (.ok s) }
  | .sourcePort => return { a with sourcePort := ← once a.sourcePort (port s) }
  | .peerAddress => return { a with peerAddress := ← once a.peerAddress (.ok s) }
  | .peerPort => return { a with peerPort := ← once a.peerPort (port s) }
  | .scenario => return { a with scenario := ← once a.scenario (.ok s) }
  | .settingsFile => return { a with settingsFile := ← once a.settingsFile (.ok s) }

/-- Turns on what is off. -/
def turnOn (a : Arguments) : Switch → Except Refusal Arguments
  | .verbose => if a.verbose then .error .repeated else .ok { a with verbose := true }
  | .listScenarios =>
    if a.listScenarios then .error .repeated else .ok { a with listScenarios := true }
  | .printSettings =>
    if a.printSettings then .error .repeated else .ok { a with printSettings := true }
  | .help => .error .help
  | .version => .error .version

def source (a : Arguments) : Option Endpoint := do return ⟨← a.sourceAddress, ← a.sourcePort⟩

def peer (a : Arguments) : Option Endpoint := do return ⟨← a.peerAddress, ← a.peerPort⟩

/-- Whether only something is to be printed. -/
def onlyPrints (a : Arguments) : Bool := a.listScenarios || a.printSettings

/-- A scenario is played between two endpoints. -/
def isComplete (a : Arguments) : Bool :=
  a.onlyPrints || (a.source.isSome && a.peer.isSome && a.scenario.isSome)

/-! ## Reading arguments -/

/-- Arguments while they are read. -/
structure Progress where
  arguments : Arguments := {}
  /-- The option that was read last, and its value unless that is still to come. -/
  pending : Option (ValueOption × Option String) := none
  /-- Two hyphens alone have been read, after which only words may follow. -/
  onlyWords : Bool := false
  deriving DecidableEq, Repr

namespace Progress

/-- Takes in the option that was read last. -/
def settle (p : Progress) : Except Refusal Progress := do
  match p.pending with
  | none => return p
  | some (_, none) => .error .valueMissing
  | some (o, some s) => return { p with arguments := ← p.arguments.give o s, pending := none }

def give (p : Progress) (o : ValueOption) (s : String) : Except Refusal Progress := do
  let p ← p.settle
  return { p with arguments := ← p.arguments.give o s }

/-- Leaves the value to the next argument. -/
def expect (p : Progress) (o : ValueOption) : Except Refusal Progress := do
  return { ← p.settle with pending := some (o, none) }

def turnOn (p : Progress) (w : Switch) : Except Refusal Progress := do
  let p ← p.settle
  return { p with arguments := ← p.arguments.turnOn w }

def takeLong (p : Progress) (cs : List Char) : Except Refusal Progress :=
  let name := String.ofList (cs.takeWhile (· ≠ '='))
  match longFlags.lookup name, cs.dropWhile (· ≠ '=') with
  | none, _ => .error .unknown
  | some (.value o), _ :: s => p.give o (String.ofList s)
  | some (.value o), [] => p.expect o
  | some (.switch _), _ :: _ => .error .needlessValue
  | some (.switch w), [] => p.turnOn w

/-- The value of an option ends its argument. An equals sign before it can be left out. -/
def takeShort (p : Progress) : List Char → Except Refusal Progress
  | [] => .ok p
  | c :: rest => match shortFlags.lookup c, rest with
    | none, _ => .error .unknown
    | some (.switch w), rest => do takeShort (← p.turnOn w) rest
    | some (.value o), [] => p.expect o
    | some (.value o), '=' :: s => p.give o (String.ofList s)
    | some (.value o), s => p.give o (String.ofList s)

/-- A word of its own can only be the value that is still to come. -/
def takeWord (p : Progress) (s : String) : Except Refusal Progress :=
  match p.pending with
  | some (o, none) => .ok { p with pending := some (o, some s) }
  | _ => .error .unknown

def take (p : Progress) (s : String) : Except Refusal Progress :=
  if p.onlyWords then .error .unknown
  else match s.toList with
    | ['-', '-'] => .ok { p with onlyWords := true }
    | '-' :: '-' :: cs => p.takeLong cs
    | '-' :: c :: cs => p.takeShort (c :: cs)
    | _ => p.takeWord s

end Progress

def parse (ss : List String) : Except Refusal Arguments := do
  let p ← ss.foldlM Progress.take {}
  let p ← p.settle
  if p.arguments.isComplete then return p.arguments else .error .missing

theorem isComplete_of_parse {ss : List String} {a : Arguments} (h : parse ss = .ok a) :
    a.isComplete = true := by
  unfold parse at h
  cases hp : ss.foldlM Progress.take {} with
  | error r => simp [hp, bind, Except.bind] at h
  | ok p =>
    cases hq : p.settle with
    | error r => simp [hp, hq, bind, Except.bind] at h
    | ok q =>
      simp only [hp, hq, bind, Except.bind, pure, Except.pure] at h
      split at h
      · simp_all
      · simp at h

end Arguments
end ScriptedPeer
