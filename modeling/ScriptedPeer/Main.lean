import ScriptedPeer.Call.Exchange
import ScriptedPeer.Performance
import ScriptedPeer.Rehearsal.Program
import Std.Async.DNS
import Std.Async.Select
import Std.Async.Signal
import Std.Async.TCP
import Std.Async.Timer
import Std.Sync.Channel
import Std.Time.DateTime

/-!
# The program

Brings a performance together with the machine: the arguments, the settings file, the sockets, the
clock, and the signals that ask for the stop. What happens is decided by the performance.
-/

namespace ScriptedPeer.Program

open Std.Async
open Std.Net (IPAddr SocketAddress)

/-- Listens for connections. -/
abbrev Listener := TCP.Socket.Server

/-- One end of a connection. -/
abbrev Socket := TCP.Socket.Client

/-- The system's words for the failures that are to be expected. -/
def systemWords : List (Nat × String) :=
  [(1, "Operation not permitted"), (2, "No such file or directory"), (5, "Input/output error"),
    (13, "Permission denied"), (20, "Not a directory"), (21, "Is a directory"),
    (24, "Too many open files"), (36, "File name too long"),
    (40, "Too many levels of symbolic links"),
    (97, "Address family not supported by protocol"), (98, "Address already in use"),
    (99, "Cannot assign requested address")]

/-- A failure by its number. Some come with the number negated in 32 bits. -/
def inSystemWords (code : UInt32) (why : String) : String :=
  let number := if code < 0x80000000 then code.toNat else (0 - code).toNat
  s!"{(systemWords.lookup number).getD why} (os error {number})"

def systemReason : IO.Error → String
  | .alreadyExists _ code why | .invalidArgument _ code why | .permissionDenied _ code why
  | .resourceExhausted _ code why | .inappropriateType _ code why | .noSuchThing _ code why
  | .noFileOrDirectory _ code why | .interrupted _ code why | .otherError code why
  | .resourceBusy code why | .resourceVanished code why | .unsupportedOperation code why
  | .hardwareFault code why | .unsatisfiedConstraints code why | .illegalOperation code why
  | .protocolError code why | .timeExpired code why => inSystemWords code why
  | .unexpectedEof => "unexpected end of file"
  | .userError why => why

def loadFile (path : String) : IO FileContent := do
  try return .ok (← IO.FS.readBinFile path)
  catch e => return .error (systemReason e)

def socketAddress (port : UInt16) : IPAddr → SocketAddress
  | .v4 address => .v4 ⟨address, port⟩
  | .v6 address => .v6 ⟨address, port⟩

def resolve (e : Endpoint) : Async SocketAddress := do
  let addresses ← DNS.getAddrInfo e.host (toString e.port)
  match addresses.toList with
  | address :: _ => return socketAddress e.port address
  | [] => throw (.userError "no address found")

/-! ## Calls -/

partial def readAnswer (client : Socket) (m : Method) (ps : Wire.Pieces) : Async Bool := do
  match Wire.readFrame .serverFrame ps with
  | .nothing | .part =>
    match ← client.recv? 65536 with
    | some bytes => readAnswer client m (ps ++ [bytes.toList])
    | none => return (Call.receive m ps).isOk
  | .frame .. | .refused _ => return (Call.receive m ps).isOk

def exchange (peer : Endpoint) (r : Request) : Async Bool := do
  let client ← TCP.Socket.Client.mk
  client.connect (← resolve peer)
  let (bytes, fault) := Call.write r.frames
  client.send ⟨bytes.toArray⟩
  if fault.isSome then return false else readAnswer client r.method []

/-- The longest time that a timer is set for; it is set again when it has run out. -/
def longestNap : Nat := 3600000

def nap (millis : Nat) : Async Unit := sleep (.ofNat (min millis longestNap))

partial def napWell (millis : Nat) : Async Unit := do
  nap millis
  if longestNap < millis then napWell (millis - longestNap)

/-- Whether a call is acknowledged in time. -/
def place (peer : Endpoint) (patience : Nat) (r : Request) : Async Bool := do
  try Async.race (exchange peer r) (do napWell patience; return false)
  catch _ => return false

/-! ## Serving -/

def portOf : SocketAddress → UInt16
  | .v4 address => address.port
  | .v6 address => address.port

def listen (e : Endpoint) : Async Listener := do
  let server ← TCP.Socket.Server.mk
  server.bind (← resolve e)
  server.listen 128
  return server

/-- Listens where a lifecycle is to serve, and tells what came of it as a network does. -/
def listenAt (place : Option (Endpoint × ServiceTable)) : Async (Network × Option Listener) := do
  let some (e, _) := place | return ({ bind := fun _ => .error "nothing is served" }, none)
  let bound : Except String Listener ←
    try .ok <$> listen e catch why => pure (.error (systemReason why))
  match bound with
  | .error why => return ({ bind := fun _ => .error why }, none)
  | .ok server =>
    try
      let port := portOf (← server.getSockName)
      return ({ bind := fun _ => .ok port }, some server)
    catch why =>
      let fault := systemReason why
      return ({ bind := fun _ => .ok 0, portFault := fun _ => some fault }, none)

partial def readCall (events : Std.Channel Event) (client : Socket) (n : Nat) : Async Unit := do
  let bytes ← try client.recv? 65536 catch _ => pure none
  let _ ← events.send (.arrived n ((bytes.map ByteArray.toList).getD []) bytes.isNone)
  if bytes.isSome then readCall events client n

def finishConnection (client : Socket) (bytes : Wire.Bytes) : Async Unit := do
  try
    client.send ⟨bytes.toArray⟩
    client.shutdown
  catch _ => return

/-! ## The performance -/

/-- What a performance needs of the world. -/
structure Scene where
  events : Std.Channel Event
  peer : Endpoint
  patience : Nat
  begun : Nat

def Scene.now (s : Scene) : IO Nat := return (← IO.monoMsNow) - s.begun

def timeOfDay : IO Timestamp := do
  return ⟨.ofNat (← Std.Time.Timestamp.now).toMillisecondsSinceUnixEpoch.val.toNat⟩

def Scene.satisfy (s : Scene) (clients : Array Socket) : Demand → Async Unit
  | .call n r => background do
      let _ ← s.events.send (.returned n (← place s.peer s.patience r))
  | .close n bytes => match clients[n]? with
    | some client => background (finishConnection client bytes)
    | none => return

/-- The next event, or a new connection. -/
def Scene.next (s : Scene) (listener : Option Listener) (wake : Option Nat) :
    Async (Event × Option Socket) := do
  let now ← s.now
  let mut sources := #[.case s.events.recvSelector fun e => return (e, none)]
  if let some time := wake then
    let timer ← Selector.sleep (.ofNat (min (time - now) longestNap))
    sources := sources.push (.case timer fun _ => return (.quiet, none))
  if let some server := listener then
    sources := sources.push (.case server.acceptSelector fun c => return (.connected, some c))
  Selectable.one sources

/-- Goes on until the stop has been given and everything is over, or the drain has run out. -/
partial def Scene.perform (s : Scene) (r : Rehearsal) (listener : Option Listener)
    (clients : Array Socket) (deadline : Option Nat) (e : Event) : Async RunReport := do
  let now ← s.now
  let (r, demands) := r.perform now (← timeOfDay) e
  demands.forM (s.satisfy clients)
  let deadline := if r.stopped then some (deadline.getD (now + r.lifecycle.drain)) else none
  if r.isOver || deadline.any (· ≤ now) then
    if let some report := r.conclude then return report
  let listener := if r.stopped then none else listener
  let wake := (r.nextDue.toList ++ deadline.toList).min?
  let (e, client) ← s.next listener wake
  match client with
  | some client =>
    background (readCall s.events client clients.size)
    s.perform r listener (clients.push client) deadline e
  | none => s.perform r listener clients deadline e

/-- Waits for a signal, which gives the stop, or tells why it cannot be waited for. -/
def onSignal (events : Std.Channel Event) (signal : Signal) : Async (Option String) := do
  try
    let waiter ← Signal.Waiter.mk signal false
    background do
      let _ ← await (← waiter.wait)
      let _ ← events.send .stopRequested
    return none
  catch why => return some (systemReason why)

/-- Plays a scenario to its end. -/
def playLive (p : Program) : Async (Except ProgramFault RunReport) := do
  match p.build {} with
  | .error fault => return .error fault
  | .ok lifecycle => do
    let events ← Std.Channel.new
    let terminate ← onSignal events .sigterm
    let interrupt ← onSignal events .sigint
    let signalFault
      | SystemSignal.terminate => terminate
      | SystemSignal.interrupt => interrupt
    if let .error fault := watch signalFault then return .error fault
    let (network, listener) ← listenAt lifecycle.listen
    let scene : Scene := {
      events
      peer := p.arguments.peer.getD Launch.anyEndpoint
      patience := p.settings.callTimeout.toNat
      begun := ← IO.monoMsNow }
    let world : World := {
      contentOf := fun _ => .error "the settings file has been read"
      network
      peer := .remote
      signalFault
      patience := 0 }
    match start world lifecycle with
    | .error fault => return .error fault
    | .ok r =>
      let demands := r.sent.reverse.map fun sent => Demand.call sent.loop sent.request
      demands.forM (scene.satisfy #[])
      return .ok (← scene.perform r listener #[] none .quiet)

def usage : String :=
  "Usage: dummy-neighbor [OPTIONS]\n" ++
    String.join (Arguments.longFlags.map fun (name, flag) => match flag with
      | .value _ => "  --" ++ name ++ " <VALUE>\n"
      | .switch _ => "  --" ++ name ++ "\n")

def report (outcome : Except ProgramFault RunReport) : IO Unit :=
  match outcome with
  | .ok r => IO.eprintln s!"Scenario {r.scenario} {r.state.name}: {r.stopReason.text}"
  | .error fault => IO.eprintln fault.message

def run (a : Arguments) : IO UInt8 := do
  match task a with
  | .listScenarios =>
    IO.print Catalog.table
    return ExitCode.success
  | .printSettings =>
    IO.print Settings.template
    return ExitCode.success
  | .play =>
    let content ← match a.settingsFile with
      | some path => loadFile path
      | none => pure (.error "no settings file is named")
    let outcome ← match prepare a fun _ => content with
      | .error fault => pure (.error fault)
      | .ok p => (playLive p).block
    report outcome
    return ExitCode.of outcome

end ScriptedPeer.Program

def main (ss : List String) : IO UInt32 := do
  match ScriptedPeer.Arguments.parse ss with
  | .ok a => return (← ScriptedPeer.Program.run a).toUInt32
  | .error refusal =>
    match refusal with
    | .help => IO.print ScriptedPeer.Program.usage
    | .version => IO.println "dummy-neighbor 0.1.0"
    | _ => IO.eprint ScriptedPeer.Program.usage
    return refusal.exitCode.toUInt32
