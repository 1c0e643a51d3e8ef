import ScriptedPeer.Scenario.Plan
import ScriptedPeer.Ticker

/-!
# Request loops

A request loop calls one method of the other peer in a given rhythm. It waits, sends a request,
waits for the call to come back, and goes on. The stop signal is looked at whenever the loop is
about to wait or to send, so that nothing is sent after it; a call in flight is let finish. A call
that fails is counted and changes nothing else.

A loop is described by what it would do next (`action`) and by the steps it then takes: `send`,
`receive` and `finish`. When a call comes back, and whether it is acknowledged, is settled when it
is sent.
-/

namespace ScriptedPeer

/-- Where a loop that waits for triggers gets them from. -/
inductive TriggerSource where
  | shared
  /-- Another loop has the triggers; none will come. -/
  | closed
  deriving DecidableEq, Repr

inductive Cadence where
  /-- Forever, once an interval. -/
  | periodic (ticker : Ticker)
  /-- Once an interval until the counter is used up. -/
  | bounded (ticker : Ticker) (counter : BoundedCounter) (untilFirstReply : Bool)
      (atBound : AtBound)
  | single
  | onTrigger (source : TriggerSource)
  deriving DecidableEq, Repr

namespace Cadence

def ticker? : Cadence → Option Ticker
  | periodic t | bounded t .. => some t
  | single | onTrigger _ => none

def mapTicker (f : Ticker → Ticker) : Cadence → Cadence
  | periodic t => periodic (f t)
  | bounded t c u a => bounded (f t) c u a
  | single => single
  | onTrigger s => onTrigger s

end Cadence

/-- Triggers on their way to a loop. -/
structure Triggers where
  pending : Nat := 0
  /-- More may come. -/
  isOpen : Bool := true
  deriving DecidableEq, Repr

inductive LoopEnd where
  | stopped
  | boundReached
  | firstReply
  | singleShotDone
  | triggerClosed
  deriving DecidableEq, Repr

def LoopEnd.name : LoopEnd → String
  | stopped => "Stopped"
  | boundReached => "BoundReached"
  | firstReply => "FirstReply"
  | singleShotDone => "SingleShotDone"
  | triggerClosed => "TriggerClosed"

/-- How a call that has been sent comes back. -/
inductive Return where
  /-- Without being waited for. -/
  | atOnce (acknowledged : Bool)
  | at (time : Nat) (acknowledged : Bool)
  | never
  deriving DecidableEq, Repr

inductive Phase where
  | waiting
  | calling (back : Return)
  | ended (why : LoopEnd)
  | crashed
  /-- Given up at the end of the drain. -/
  | aborted
  deriving DecidableEq, Repr

/-- The counts of a loop, kept while it runs. They have 64 bits each, which are never used up. -/
structure Tally where
  attempts : Nat := 0
  successes : Nat := 0
  failures : Nat := 0
  /-- The highest sequence number sent. -/
  lastSequence : Option SequenceNumber := none
  deriving DecidableEq, Repr

structure RequestLoop where
  method : Method
  cadence : Cadence
  profile : Profile
  next : SequenceNumber := .first
  tally : Tally := {}
  phase : Phase := .waiting
  deriving DecidableEq, Repr

/-- The counts of a loop that is over. A loop that was given up or has crashed has no end. -/
structure LoopReport where
  method : Method
  tally : Tally
  endedBy : Option LoopEnd
  deriving DecidableEq, Repr

namespace RequestLoop

/-- What a loop does when it gets to run. -/
inductive Action where
  | rest
  | send
  | receive (acknowledged : Bool)
  | finish (why : LoopEnd)
  | crash
  deriving DecidableEq, Repr

def start (l : RequestLoop) (now : Nat) : RequestLoop :=
  { l with cadence := l.cadence.mapTicker (·.start now) }

/-- A ticker with an interval of zero breaks its loop as soon as that gets to run. -/
def isUnfit (l : RequestLoop) : Bool := l.cadence.ticker?.any (·.interval = 0)

def actionWaiting (c : Cadence) (now : Nat) (triggers : Triggers) : Action :=
  match c with
  | .periodic t | .bounded t .. => if t.isDue now then .send else .rest
  | .single => .send
  | .onTrigger .closed => .finish .triggerClosed
  | .onTrigger .shared =>
    if 0 < triggers.pending then .send
    else if triggers.isOpen then .rest
    else .finish .triggerClosed

def action (l : RequestLoop) (now : Nat) (stopped : Bool) (triggers : Triggers) : Action :=
  match l.phase with
  | .waiting =>
    if l.isUnfit then .crash
    else if stopped then .finish .stopped
    else actionWaiting l.cadence now triggers
  | .calling (.atOnce acknowledged) => .receive acknowledged
  | .calling (.at time acknowledged) => if time ≤ now then .receive acknowledged else .rest
  | .calling .never | .ended _ | .crashed | .aborted => .rest

/-- Takes the numbers of one request; none are taken when the request needs none. -/
def reserve (l : RequestLoop) (count : Nat) : RequestLoop :=
  if count = 0 then l
  else
    let last := l.next.advance (count - 1)
    { l with next := last.next, tally := { l.tally with lastSequence := some last } }

/-- The request that is sent next. -/
def request (l : RequestLoop) (clock : Nat → Timestamp) : Request :=
  l.profile.request l.method l.next clock

/-- Sends the next request, which will come back as told. -/
def send (l : RequestLoop) (now : Nat) (phase : Phase) : RequestLoop :=
  let l := l.reserve (l.profile.numbersUsed l.method)
  { l with
    cadence := l.cadence.mapTicker (·.take now)
    tally := { l.tally with attempts := l.tally.attempts + 1 }
    phase }

/-- A request starts at the next number, and the one after it where it has ended. -/
theorem next_reserve (l : RequestLoop) (count : Nat) :
    (l.reserve count).next = l.next.advance count := by
  unfold reserve
  split
  · next h => rw [h, SequenceNumber.advance_zero]
  · next h =>
    simp only [SequenceNumber.next, ← SequenceNumber.advance_add]
    congr 1
    omega

@[simp] theorem method_send (l : RequestLoop) (now : Nat) (phase : Phase) :
    (l.send now phase).method = l.method := by
  simp only [send, reserve]; split <;> rfl

@[simp] theorem profile_send (l : RequestLoop) (now : Nat) (phase : Phase) :
    (l.send now phase).profile = l.profile := by
  simp only [send, reserve]; split <;> rfl

@[simp] theorem cadence_send (l : RequestLoop) (now : Nat) (phase : Phase) :
    (l.send now phase).cadence = l.cadence.mapTicker (·.take now) := by
  simp only [send, reserve]; split <;> rfl

@[simp] theorem phase_send (l : RequestLoop) (now : Nat) (phase : Phase) :
    (l.send now phase).phase = phase := rfl

@[simp] theorem next_send (l : RequestLoop) (now : Nat) (phase : Phase) :
    (l.send now phase).next = l.next.advance (l.profile.numbersUsed l.method) :=
  l.next_reserve _

@[simp] theorem attempts_send (l : RequestLoop) (now : Nat) (phase : Phase) :
    (l.send now phase).tally.attempts = l.tally.attempts + 1 := by
  simp only [send, reserve]; split <;> rfl

@[simp] theorem successes_send (l : RequestLoop) (now : Nat) (phase : Phase) :
    (l.send now phase).tally.successes = l.tally.successes := by
  simp only [send, reserve]; split <;> rfl

@[simp] theorem failures_send (l : RequestLoop) (now : Nat) (phase : Phase) :
    (l.send now phase).tally.failures = l.tally.failures := by
  simp only [send, reserve]; split <;> rfl

def count (t : Tally) (acknowledged : Bool) : Tally :=
  if acknowledged then { t with successes := t.successes + 1 }
  else { t with failures := t.failures + 1 }

@[simp] theorem attempts_count (t : Tally) (acknowledged : Bool) :
    (count t acknowledged).attempts = t.attempts := by
  cases acknowledged <;> rfl

@[simp] theorem successes_count (t : Tally) (acknowledged : Bool) :
    (count t acknowledged).successes = t.successes + if acknowledged then 1 else 0 := by
  cases acknowledged <;> rfl

@[simp] theorem failures_count (t : Tally) (acknowledged : Bool) :
    (count t acknowledged).failures = t.failures + if acknowledged then 0 else 1 := by
  cases acknowledged <;> rfl

/-- What a call that came back leads to: the cadence afterwards, the end of the loop if it is over,
and whether the process is to stop. -/
def afterCall (c : Cadence) (acknowledged : Bool) : Cadence × Option LoopEnd × Bool :=
  match c with
  | .periodic t => (.periodic t, none, false)
  | .bounded t counter untilFirstReply atBound =>
    if untilFirstReply && acknowledged then
      (.bounded t counter untilFirstReply atBound, some .firstReply, false)
    else
      let (decision, counter) := counter.check
      let c := .bounded t counter untilFirstReply atBound
      if decision.isExhausted then (c, some .boundReached, atBound == .stopProcess)
      else (c, none, false)
  | .single => (.single, some .singleShotDone, false)
  | .onTrigger s => (.onTrigger s, none, false)

def phaseAfter : Option LoopEnd → Phase
  | some why => .ended why
  | none => .waiting

/-- Takes the result of the call in flight. The last request of a bound may stop the process. -/
def receive (l : RequestLoop) (acknowledged : Bool) : RequestLoop × Option StopReason :=
  let (cadence, ending, stops) := afterCall l.cadence acknowledged
  ({ l with cadence, tally := count l.tally acknowledged, phase := phaseAfter ending },
    if stops then some (.requestBound l.method) else none)

def finish (l : RequestLoop) (why : LoopEnd) : RequestLoop := { l with phase := .ended why }

def crash (l : RequestLoop) : RequestLoop := { l with phase := .crashed }

/-- What a loop between two calls does once it sees the stop. -/
def halt (l : RequestLoop) : RequestLoop := if l.isUnfit then l.crash else l.finish .stopped

/-- Gives the loop up. Its counts stay as they are. -/
def abort (l : RequestLoop) : RequestLoop := { l with phase := .aborted }

/-- What an action takes from a turn of the loop: one for a tick, a trigger, the end of the triggers,
or an answer that was waited for. To go on waiting for one of them there must be one left. -/
def cost (l : RequestLoop) : Action → Nat
  | .send => if l.cadence = .single then 0 else 1
  | .receive _ => if l.phase matches .calling (.atOnce _) then 0 else 1
  | .finish _ => 1
  | .crash => 0
  | .rest => if l.phase matches .waiting | .calling (.at ..) then 1 else 0

/-- The loop uses up a trigger for every request. -/
def usesTrigger (l : RequestLoop) : Bool := l.cadence matches .onTrigger .shared

/-- Leaves the triggers to the first loop that waits for them. -/
def shareTriggers : TriggerSource → List RequestLoop → List RequestLoop
  | _, [] => []
  | source, l :: rest =>
    if l.usesTrigger then { l with cadence := .onTrigger source } :: shareTriggers .closed rest
    else l :: shareTriggers source rest

/-- Nothing more will come from the loop. -/
def isOver (l : RequestLoop) : Bool :=
  match l.phase with
  | .waiting | .calling _ => false
  | .ended _ | .crashed | .aborted => true

/-- When the loop has something to do next, as far as it depends on time alone. -/
def nextDue (l : RequestLoop) : Option Nat :=
  match l.phase with
  | .waiting => l.cadence.ticker?.map Ticker.deadline
  | .calling (.at time _) => some time
  | .calling (.atOnce _) | .calling .never | .ended _ | .crashed | .aborted => none

/-- A bound on the steps the loop can take at one instant. -/
def stepsAt (l : RequestLoop) (now : Nat) (triggers : Triggers) : Nat :=
  let sends := match l.cadence with
    | .periodic t | .bounded t .. => now + 1 - t.deadline
    | .single => 1
    | .onTrigger _ => triggers.pending
  2 * sends + 2

def report (l : RequestLoop) : LoopReport :=
  ⟨l.method, l.tally, match l.phase with
    | .ended why => some why
    | .waiting | .calling _ | .crashed | .aborted => none⟩

end RequestLoop
end ScriptedPeer
