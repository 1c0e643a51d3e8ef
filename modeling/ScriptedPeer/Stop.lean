import ScriptedPeer.Method

/-!
# Stopping

Every part of a run shares one stop signal. It is given once: the first reason is kept, and later
ones change nothing.
-/

namespace ScriptedPeer

inductive StopReason where
  | external
  /-- A counting handler has given its last reply. -/
  | replyLimit (method : Method)
  /-- A bounded loop has sent its last request. -/
  | requestBound (method : Method)
  deriving DecidableEq, Repr

def StopReason.text : StopReason → String
  | external => "external stop request"
  | replyLimit m => m.name ++ " reply limit reached"
  | requestBound m => m.name ++ " request bound reached"

structure StopSignal where
  reason : Option StopReason := none
  deriving DecidableEq, Repr

namespace StopSignal

def isTriggered (s : StopSignal) : Bool := s.reason.isSome

def trigger (s : StopSignal) (reason : StopReason) : StopSignal := ⟨s.reason.or (some reason)⟩

@[simp] theorem isTriggered_trigger (s : StopSignal) (r : StopReason) :
    (s.trigger r).isTriggered = true := by
  cases s with | mk reason => cases reason <;> rfl

theorem trigger_of_isTriggered {s : StopSignal} (h : s.isTriggered = true) (r : StopReason) :
    s.trigger r = s := by
  cases s with | mk reason => cases reason <;> simp_all [isTriggered, trigger]

@[simp] theorem trigger_trigger (s : StopSignal) (q r : StopReason) :
    (s.trigger q).trigger r = s.trigger q :=
  trigger_of_isTriggered (isTriggered_trigger s q) r

end StopSignal
end ScriptedPeer
