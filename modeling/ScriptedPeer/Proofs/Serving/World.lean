import ScriptedPeer.Proofs.Call.Arrival

/-!
# A server and its visitors

A server has many visitors at a time, each on a connection of its own, and comes to them in any
order. Here every part of a visit is a step for itself: the server accepts a connection, bytes
arrive on it, its other end closes, the server reads what has arrived and hands a complete call to
the service table, and writes the answer piece by piece. In between anything may happen on the other
connections, somebody may give the stop, and after it what is still open is given up at a deadline.
A server that takes these steps at once does what it does in a rehearsal.
-/

namespace ScriptedPeer

/-- How far the server has come with a connection. -/
inductive Stage where
  | reading
  /-- The call has been dispatched, and so much of the answer is still to be written. -/
  | writing (response : Response) (left : Wire.Bytes)
  /-- Closed, with what a call was answered if there was one. -/
  | closed (response : Option Response)
  deriving DecidableEq, Repr

/-- A connection that was accepted. -/
structure Visit where
  arrived : Wire.Pieces := []
  /-- The other end has closed. -/
  isEnded : Bool := false
  written : Wire.Bytes := []
  stage : Stage := .reading
  deriving DecidableEq, Repr

namespace Visit

def isOpen (v : Visit) : Bool :=
  match v.stage with
  | .reading | .writing .. => true
  | .closed _ => false

/-- What the service table has answered. -/
def answer? (v : Visit) : Option Response :=
  match v.stage with
  | .reading => none
  | .writing response _ => some response
  | .closed response => response

/-- Bytes that arrive after the call are left unread. -/
def arrive (v : Visit) (bytes : Wire.Bytes) : Visit :=
  if v.stage = .reading ∧ v.isEnded = false then { v with arrived := v.arrived ++ [bytes] } else v

def close (v : Visit) : Visit := if v.isOpen then { v with isEnded := true } else v

/-- Closes the connection, whatever is still to be read or written. -/
def giveUp (v : Visit) : Visit := { v with stage := .closed v.answer? }

end Visit

/-- A server with its visitors, and how long they are waited for after the stop. -/
structure Reception where
  table : ServiceTable
  stop : StopSignal := {}
  stats : ServerStats := {}
  isListening : Bool := true
  /-- In the order in which they were accepted. -/
  visits : List Visit := []
  now : Nat
  drain : Nat
  /-- When those that are still open will be given up. -/
  deadline : Option Nat := none
  /-- The calls that were dispatched, in order. -/
  calls : List Request := []
  deriving DecidableEq, Repr

inductive ReceptionEvent where
  /-- Somebody connects, and the server looks for the stop before it accepts. -/
  | accept
  | arrive (visit : Nat) (bytes : Wire.Bytes)
  /-- The other end closes. -/
  | close (visit : Nat)
  /-- The server reads what has arrived, and dispatches the call if it is complete. -/
  | read (visit : Nat)
  /-- So many bytes of the answer are written. -/
  | write (visit : Nat) (count : Nat)
  /-- The connection breaks. -/
  | reset (visit : Nat)
  /-- Somebody else gives the stop. -/
  | stop (reason : StopReason)
  /-- The stop is seen by those who then wait for the server. -/
  | shutdown
  /-- Those who wait for the server look for the deadline. -/
  | giveUp
  | pass (millis : Nat)
  deriving DecidableEq, Repr

namespace Reception

def setVisit (w : Reception) (n : Nat) (v : Visit) : Reception :=
  { w with visits := w.visits.set n v }

def onVisit (w : Reception) (n : Nat) (f : Visit → Reception) : Reception :=
  match w.visits[n]? with
  | some v => f v
  | none => w

/-- The connection is closed, after which these are the counts. -/
def finish (w : Reception) (n : Nat) (v : Visit) (response : Option Response)
    (stats : ServerStats) : Reception :=
  { w with stats, visits := w.visits.set n { v with stage := .closed response } }

/-- An answer of which all has been written is counted, and the connection is closed. -/
def answer (w : Reception) (n : Nat) (v : Visit) (response : Response) (left : Wire.Bytes) :
    Reception :=
  if left = [] then w.finish n v (some response) (Server.counted w.stats response)
  else w.setVisit n { v with stage := .writing response left }

def fail (w : Reception) (n : Nat) (v : Visit) (response : Option Response) : Reception :=
  w.finish n v response { w.stats with failed := w.stats.failed + 1 }

/-- The service table has handled the call. -/
def take (w : Reception) (r : Request) : Reception :=
  let done := w.table.dispatch w.stop r
  { w with table := done.table, stop := done.stop, calls := w.calls ++ [r] }

/-- Hands a call to the service table, and begins to answer it. -/
def dispatch (w : Reception) (n : Nat) (v : Visit) (r : Request) : Reception :=
  let response := (w.table.dispatch w.stop r).response
  match Server.encodeResponse response with
  | .ok bytes => (w.take r).answer n v response bytes
  | .error _ => (w.take r).fail n v (some response)

def read (w : Reception) (n : Nat) : Reception := w.onVisit n fun v =>
  if v.stage ≠ .reading then w
  else
    let reading := CallReading.read v.arrived
    if reading.isOpen && !v.isEnded then w
    else match reading.atEnd with
      | .ok (some (r, _)) => w.dispatch n v r
      | .ok none => w.finish n v none w.stats
      | .error _ => w.fail n v none

def write (w : Reception) (n count : Nat) : Reception := w.onVisit n fun v =>
  match v.stage with
  | .writing response left =>
    w.answer n { v with written := v.written ++ left.take count } response (left.drop count)
  | .reading | .closed _ => w

def accept (w : Reception) : Reception :=
  if w.stop.isTriggered then { w with isListening := false }
  else
    { w with
      stats := { w.stats with connections := w.stats.connections + 1 }
      visits := w.visits ++ [{}] }

def shutdown (w : Reception) : Reception :=
  if w.stop.isTriggered ∧ w.deadline = none then { w with deadline := some (w.now + w.drain) }
  else w

def isLate (w : Reception) : Bool := w.deadline.any (· ≤ w.now)

def step (w : Reception) : ReceptionEvent → Reception
  | .accept => w.accept
  | .arrive n bytes => w.onVisit n fun v => w.setVisit n (v.arrive bytes)
  | .close n => w.onVisit n fun v => w.setVisit n v.close
  | .read n => w.read n
  | .write n count => w.write n count
  | .reset n => w.onVisit n fun v => if v.isOpen then w.fail n v v.answer? else w
  | .stop reason => { w with stop := w.stop.trigger reason }
  | .shutdown => w.shutdown
  | .giveUp => if w.isLate then { w with visits := w.visits.map Visit.giveUp } else w
  | .pass millis => { w with now := w.now + millis }

/-- The reception after the first `k` events of a schedule. -/
def run (w : Reception) (schedule : Nat → ReceptionEvent) : Nat → Reception
  | 0 => w
  | k + 1 => (w.run schedule k).step (schedule k)

theorem run_succ (w : Reception) (schedule : Nat → ReceptionEvent) (k : Nat) :
    w.run schedule (k + 1) = (w.run schedule k).step (schedule k) := rfl

/-- Some events one after the other. -/
def after (w : Reception) (events : List ReceptionEvent) : Reception := events.foldl step w

end Reception

/-- What a rehearsal knows of a visit. -/
def Visit.connection (v : Visit) : Connection := ⟨v.arrived, v.written, v.isOpen⟩

namespace Reception

/-- What a rehearsal knows of a reception. -/
def asServer (w : Reception) (endpoint : Endpoint) : Server where
  endpoint
  table := w.table
  isListening := w.isListening
  stats := w.stats
  connections := w.visits.map Visit.connection

variable {w : Reception} {n : Nat} {v : Visit}

theorem onVisit_of_some (h : w.visits[n]? = some v) (f : Visit → Reception) :
    w.onVisit n f = f v := by
  simp only [onVisit, h]

theorem getElem?_setVisit_self (hn : n < w.visits.length) (v : Visit) :
    (w.setVisit n v).visits[n]? = some v :=
  List.getElem?_set_self hn

theorem getElem?_finish_self (hn : n < w.visits.length) (v : Visit) (response : Option Response)
    (stats : ServerStats) :
    (w.finish n v response stats).visits[n]? = some { v with stage := .closed response } :=
  List.getElem?_set_self hn

theorem setVisit_setVisit (w : Reception) (n : Nat) (v v' : Visit) :
    (w.setVisit n v).setVisit n v' = w.setVisit n v' := by
  simp only [setVisit, List.set_set]

theorem finish_setVisit (w : Reception) (n : Nat) (v v' : Visit) (response : Option Response)
    (stats : ServerStats) :
    (w.setVisit n v).finish n v' response stats = w.finish n v' response stats := by
  simp only [finish, setVisit, List.set_set]

theorem dispatch_setVisit (w : Reception) (n : Nat) (v v' : Visit) (r : Request) :
    (w.setVisit n v).dispatch n v' r = w.dispatch n v' r := by
  simp only [dispatch, take, answer, fail, finish, setVisit, List.set_set]

theorem asServer_setVisit (w : Reception) (n : Nat) (v : Visit) (endpoint : Endpoint) :
    (w.setVisit n v).asServer endpoint = (w.asServer endpoint).setConnection n v.connection := by
  simp only [setVisit, asServer, Server.setConnection, List.map_set]

theorem asServer_finish (w : Reception) (n : Nat) (v : Visit) (response : Option Response)
    (stats : ServerStats) (endpoint : Endpoint) :
    (w.finish n v response stats).asServer endpoint =
      { w.asServer endpoint with stats }.setConnection n ⟨v.arrived, v.written, false⟩ := by
  simp only [finish, asServer, Server.setConnection, List.map_set]
  rfl

theorem asServer_accept (h : w.stop.isTriggered = false) (endpoint : Endpoint) :
    w.accept.asServer endpoint = (w.asServer endpoint).accept := by
  simp [accept, h, asServer, Server.accept, Visit.connection, Visit.isOpen]

/-- What arrives, and whether the other end closes with it. -/
def delivered (n : Nat) (bytes : Wire.Bytes) (closed : Bool) : List ReceptionEvent :=
  .arrive n bytes :: if closed then [.close n] else []

theorem after_delivered {arrived : Wire.Pieces} (h : w.visits[n]? = some { arrived })
    (bytes : Wire.Bytes) (closed : Bool) : w.after (delivered n bytes closed) =
      w.setVisit n { arrived := arrived ++ [bytes], isEnded := closed } := by
  have hn : n < w.visits.length := (List.getElem?_eq_some_iff.mp h).1
  have harrive : w.step (.arrive n bytes) = w.setVisit n { arrived := arrived ++ [bytes] } := by
    rw [step, onVisit_of_some h]
    rfl
  cases closed with
  | false => exact harrive
  | true =>
    change (w.step (.arrive n bytes)).step (.close n) = _
    rw [harrive, step, onVisit_of_some (getElem?_setVisit_self hn _), setVisit_setVisit]
    rfl

/-- A call that is not complete yet is left for later. -/
theorem read_of_open {arrived : Wire.Pieces} (h : w.visits[n]? = some { arrived })
    (hopen : (CallReading.read arrived).isOpen = true) : w.read n = w := by
  simp [read, onVisit_of_some h, hopen]

/-- A call that is complete, or has come to its end, is dispatched or fails. -/
theorem read_of_done {arrived : Wire.Pieces} {isEnded : Bool}
    (h : w.visits[n]? = some { arrived, isEnded })
    (hdone : ((CallReading.read arrived).isOpen && !isEnded) = false) : w.read n =
      match (CallReading.read arrived).atEnd with
      | .ok (some (r, _)) => w.dispatch n { arrived, isEnded } r
      | .ok none => w.finish n { arrived, isEnded } none w.stats
      | .error _ => w.fail n { arrived, isEnded } none := by
  simp only [read, onVisit_of_some h, ne_eq, not_true_eq_false, if_false, hdone,
    Bool.false_eq_true]

theorem write_of_not_writing (h : w.visits[n]? = some v) (hv : ∀ r left, v.stage ≠ .writing r left)
    (count : Nat) : w.write n count = w := by
  simp only [write, onVisit_of_some h]
  split
  · next r left hs => exact absurd hs (hv r left)
  · rfl
  · rfl

theorem write_of_writing {response : Response} {left : Wire.Bytes} (h : w.visits[n]? = some v)
    (hv : v.stage = .writing response left) (count : Nat) : w.write n count =
      w.answer n { v with written := v.written ++ left.take count } response (left.drop count) := by
  simp only [write, onVisit_of_some h, hv]

/-- The rest of an answer is written at once. -/
theorem write_answer (hn : n < w.visits.length) (v : Visit) (response : Response)
    {left : Wire.Bytes} {count : Nat} (hcount : left.length ≤ count) :
    (w.answer n v response left).write n count =
      w.finish n { v with written := v.written ++ left } (some response)
        (Server.counted w.stats response) := by
  by_cases hleft : left = []
  · rw [answer, if_pos hleft, write_of_not_writing (getElem?_finish_self hn _ _ _)
      (fun _ _ => nofun), hleft, List.append_nil]
  · rw [answer, if_neg hleft, write_of_writing (getElem?_setVisit_self hn _) rfl,
      List.take_of_length_le hcount, List.drop_of_length_le hcount, answer, if_pos rfl,
      finish_setVisit]
    rfl

/-- A call that is dispatched and answered at once is answered as in a rehearsal. -/
theorem asServer_dispatch (hn : n < w.visits.length) (arrived : Wire.Pieces) (isEnded : Bool)
    (r : Request) (endpoint : Endpoint) {count : Nat}
    (hcount : ((w.asServer endpoint).answer w.stop r).written.length ≤ count) :
    let done := (w.asServer endpoint).answer w.stop r
    let w' := (w.dispatch n { arrived, isEnded } r).write n count
    w'.asServer endpoint = done.server.setConnection n ⟨arrived, done.written, false⟩ ∧
      w'.stop = done.stop := by
  have hbroken : r.method ∉ (w.asServer endpoint).broken := List.not_mem_nil
  have htake : n < (w.take r).visits.length := hn
  cases he : Server.encodeResponse (w.table.dispatch w.stop r).response with
  | ok written =>
    rw [Server.answer_of_written hbroken he] at hcount ⊢
    simp only [dispatch, he]
    rw [write_answer htake _ _ hcount, asServer_finish]
    exact ⟨rfl, rfl⟩
  | error fault =>
    rw [Server.answer_of_unwritten hbroken he]
    simp only [dispatch, he, fail]
    rw [write_of_not_writing (getElem?_finish_self htake _ _ _) (fun _ _ => nofun), asServer_finish]
    exact ⟨rfl, rfl⟩

/-- What arrives in a rehearsal is here read and answered at once. -/
theorem asServer_arrive {arrived : Wire.Pieces} (h : w.visits[n]? = some { arrived })
    (bytes : Wire.Bytes) (closed : Bool) (endpoint : Endpoint) {count : Nat}
    (hcount : ((w.asServer endpoint).arrive w.stop n bytes closed).written.length ≤ count) :
    let done := (w.asServer endpoint).arrive w.stop n bytes closed
    let w' := ((w.after (delivered n bytes closed)).read n).write n count
    w'.asServer endpoint = done.server ∧ w'.stop = done.stop := by
  have hn : n < w.visits.length := (List.getElem?_eq_some_iff.mp h).1
  have hc : (w.asServer endpoint).connections[n]? = some ⟨arrived, [], true⟩ := by
    simp only [asServer, List.getElem?_map, h, Option.map_some]
    rfl
  have hv := getElem?_setVisit_self hn { arrived := arrived ++ [bytes], isEnded := closed }
  rw [after_delivered h]
  -- More may still come, or what has arrived is all that the server reads.
  by_cases hdone : ((CallReading.read (arrived ++ [bytes])).isOpen && !closed) = true
  · obtain ⟨hopen, hclosed⟩ := Bool.and_eq_true_iff.mp hdone
    obtain rfl : closed = false := by simpa using hclosed
    rw [Server.arrive_of_open hc rfl hopen, read_of_open hv hopen,
      write_of_not_writing hv (fun _ _ => nofun)]
    exact ⟨asServer_setVisit w n _ endpoint, rfl⟩
  · have hdone' := Bool.eq_false_iff.mpr hdone
    have hor : (CallReading.read (arrived ++ [bytes])).isOpen = false ∨ closed = true := by
      cases closed with
      | true => exact .inr rfl
      | false => exact .inl (by simpa using hdone')
    rw [Server.arrive_of_concluded hc rfl hor] at hcount ⊢
    rw [read_of_done hv hdone']
    simp only [Server.conclude] at hcount ⊢
    cases hend : (CallReading.read (arrived ++ [bytes])).atEnd with
    | error fault =>
      simp only [fail, finish_setVisit]
      rw [write_of_not_writing (getElem?_finish_self hn _ _ _) (fun _ _ => nofun), asServer_finish]
      exact ⟨rfl, rfl⟩
    | ok found =>
      cases found with
      | none =>
        simp only [finish_setVisit]
        rw [write_of_not_writing (getElem?_finish_self hn _ _ _) (fun _ _ => nofun),
          asServer_finish]
        exact ⟨rfl, rfl⟩
      | some call =>
        simp only [hend] at hcount
        simp only [dispatch_setVisit]
        exact asServer_dispatch hn _ closed call.1 endpoint hcount

end Reception
end ScriptedPeer
