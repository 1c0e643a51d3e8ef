import ScriptedPeer.Call.Reading
import ScriptedPeer.ServiceTable

/-!
# The server

A server answers one call on each connection. Connections stand beside each other; a call is handed
to the service table in one step, at the moment its last byte has arrived. A connection that ends
without a single byte is no call, and one that ends or errs within a call counts as failed; neither
reaches a handler. When the stop is given no connection is accepted any more, and those accepted
before are still answered.
-/

namespace ScriptedPeer

/-- What has become of the connections. The counts have 64 bits each, which are never used up. -/
structure ServerStats where
  connections : Nat := 0
  replied : Nat := 0
  withheld : Nat := 0
  unimplemented : Nat := 0
  failed : Nat := 0
  deriving DecidableEq, Repr

structure Connection where
  arrived : Wire.Pieces := []
  written : Wire.Bytes := []
  /-- The server still waits for a call. -/
  isOpen : Bool := true
  deriving DecidableEq, Repr

structure Server where
  endpoint : Endpoint
  table : ServiceTable
  /-- Methods whose handling breaks down. Their calls are closed and not counted. -/
  broken : List Method := []
  isListening : Bool := true
  stats : ServerStats := {}
  /-- In the order in which they were accepted. -/
  connections : List Connection := []
  deriving DecidableEq, Repr

namespace Server

/-- What a connection leads to: the server and the stop signal afterwards, the bytes that are
written, and whether a trigger was fired. -/
structure Outcome where
  server : Server
  stop : StopSignal
  written : Wire.Bytes := []
  fired : Bool := false
  deriving DecidableEq, Repr

def failed (s : Server) : Server :=
  { s with stats := { s.stats with failed := s.stats.failed + 1 } }

/-- Counts what has become of a call, once its answer has been written. -/
def counted (stats : ServerStats) : Response → ServerStats
  | .reply _ => { stats with replied := stats.replied + 1 }
  | .withhold => { stats with withheld := stats.withheld + 1 }
  | .unimplemented _ => { stats with unimplemented := stats.unimplemented + 1 }

/-- The bytes of an answer; an answer that is withheld has none. -/
def encodeResponse : Response → Except Wire.Fault Wire.Bytes
  | .reply r => Wire.Frame.encode .serverFrame (.reply r)
  | .unimplemented m => Wire.Frame.encode .serverFrame (.unimplemented m)
  | .withhold => .ok []

/-- An answer too large to be written counts as a failure, though the call has been handled. -/
def answer (s : Server) (stop : StopSignal) (r : Request) : Outcome :=
  if r.method ∈ s.broken then { server := s, stop }
  else
    let done := s.table.dispatch stop r
    let s := { s with table := done.table }
    match encodeResponse done.response with
    | .ok written =>
      { server := { s with stats := counted s.stats done.response }
        stop := done.stop, written, fired := done.fired }
    | .error _ => { server := s.failed, stop := done.stop, fired := done.fired }

/-- What comes of a connection on which nothing more arrives. -/
def conclude (s : Server) (stop : StopSignal) (reading : CallReading) : Outcome :=
  match reading.atEnd with
  | .ok (some (r, _)) => s.answer stop r
  | .ok none => { server := s, stop }
  | .error _ => { server := s.failed, stop }

/-- One connection from beginning to end: everything arrives, and then it is closed. -/
def serve (s : Server) (stop : StopSignal) (arrived : Wire.Pieces) : Outcome :=
  let s := { s with stats := { s.stats with connections := s.stats.connections + 1 } }
  s.conclude stop (.read arrived)

/-- Takes a new connection and gives it the next number. -/
def accept (s : Server) : Server :=
  { s with
    stats := { s.stats with connections := s.stats.connections + 1 }
    connections := s.connections ++ [{}] }

def setConnection (s : Server) (n : Nat) (c : Connection) : Server :=
  { s with connections := s.connections.set n c }

/-- Bytes arrive on connection `n`, after which its other end may have closed. A call is answered as
soon as it is complete, and the connection is then closed. -/
def arrive (s : Server) (stop : StopSignal) (n : Nat) (bytes : Wire.Bytes) (closed : Bool) :
    Outcome :=
  match s.connections[n]? with
  | none => { server := s, stop }
  | some c =>
    if !c.isOpen then { server := s, stop }
    else
      let arrived := c.arrived ++ [bytes]
      let reading := CallReading.read arrived
      if reading.isOpen && !closed then { server := s.setConnection n { c with arrived }, stop }
      else
        let done := s.conclude stop reading
        { done with
          server := done.server.setConnection n ⟨arrived, done.written, false⟩ }

/-- Accepts connections until the stop, and none after it. -/
def attend (s : Server) (stopped : Bool) : Server := { s with isListening := !stopped }

/-- Whether the server has yet to see the stop. -/
def isBusy (s : Server) (stopped : Bool) : Bool := stopped && s.isListening

/-- Closes every connection without an answer. -/
def abort (s : Server) : Server :=
  { s with
    isListening := false
    connections := s.connections.map ({ · with isOpen := false }) }

def isDrained (s : Server) : Bool := s.connections.all (!·.isOpen)

end Server
end ScriptedPeer
