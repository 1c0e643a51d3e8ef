import ScriptedPeer.Endpoint
import ScriptedPeer.Fault

/-!
# Networks

What the machine that a peer runs on lets it do: which endpoints it may listen on, and whether
anybody can be reached.
-/

namespace ScriptedPeer

structure Network where
  /-- The port that is bound for an endpoint, or why there is none. -/
  bind : Endpoint → Except String UInt16
  /-- Why the port that was bound for an endpoint cannot be asked for, if it cannot. -/
  portFault : Endpoint → Option String := fun _ => none
  /-- Why no connection can be made, if none can. -/
  unreachable : Option String := none

namespace Network

/-- Listens at an endpoint: the port that is bound, or why nobody listens there. -/
def listen (n : Network) (e : Endpoint) : Except RunFault UInt16 :=
  match n.bind e, n.portFault e with
  | .error why, _ => .error (.bind e.text why)
  | .ok _, some why => .error (.call (.network why))
  | .ok port, none => .ok port

theorem listen_eq_ok_iff {n : Network} {e : Endpoint} {port : UInt16} :
    n.listen e = .ok port ↔ n.bind e = .ok port ∧ n.portFault e = none := by
  unfold listen
  cases n.bind e <;> cases n.portFault e <;> simp

/-- The network forbids to bind the endpoint, or fails when it is asked for the port. -/
theorem listen_eq_error_iff {n : Network} {e : Endpoint} {fault : RunFault} :
    n.listen e = .error fault ↔
      (∃ why, n.bind e = .error why ∧ fault = .bind e.text why) ∨
      ∃ port why, n.bind e = .ok port ∧ n.portFault e = some why ∧
        fault = .call (.network why) := by
  unfold listen
  cases n.bind e <;> cases n.portFault e <;> simp [eq_comm]

/-- Ports below this one are kept for privileged programs. -/
def firstFreePort : UInt16 := 1024

/-- The port that stands for "any free port" when an endpoint asks for port zero. -/
def anyPort : UInt16 := 49152

/-- Hosts that need no name service: addresses, and the machine itself. -/
def isAddress (host : String) : Bool :=
  host == "localhost" || host.contains ':' ||
    (host.toList.all (fun c => c.isDigit || c == '.') && host.toList.count '.' == 3)

def bindHere (e : Endpoint) : Except String UInt16 :=
  if !isAddress e.host then
    .error "failed to lookup address information: Temporary failure in name resolution"
  else if e.port = 0 then .ok anyPort
  else if e.port < firstFreePort then .error "Permission denied (os error 13)"
  else .ok e.port

/-- A machine cut off from every network, itself included. -/
def isolated : Network :=
  { bind := bindHere, unreachable := some "Network is unreachable (os error 101)" }

/-- A machine that can reach itself. -/
def loopback : Network := { bind := bindHere }

end Network
end ScriptedPeer
