import ScriptedPeer.Policy
import ScriptedPeer.Profile
import ScriptedPeer.Stop

/-!
# Reply handlers

A handler answers the calls of one method. For each it asks its policy whether to send the canned
reply or to close the call without one. A counting policy gives the stop signal with its last reply.
A hook, if the handler has one, counts every call before the policy is asked and fires on every
n-th.
-/

namespace ScriptedPeer

inductive Verdict where
  | acknowledge
  | withhold
  deriving DecidableEq, Repr

inductive ReplyPolicy where
  | always
  /-- Replies until the counter is used up, then stops the process. -/
  | countThenStop (counter : BoundedCounter)
  /-- Tells calls whose key is new from those whose key was seen before. -/
  | bySequence (seen : SeenNumbers) (first duplicate : Verdict)
  deriving DecidableEq, Repr

namespace ReplyPolicy

def counting (limit : UInt32) : ReplyPolicy := .countThenStop { limit }

def sequenced (first duplicate : Verdict) : ReplyPolicy := .bySequence {} first duplicate

end ReplyPolicy

structure Handler where
  method : Method
  policy : ReplyPolicy
  profile : Profile
  hook : Option EveryNth := none
  /-- A count of 64 bits, which are never used up. -/
  invocations : Nat := 0
  deriving DecidableEq, Repr

namespace Handler

/-- What becomes of a call: the answer, the handler and the stop signal afterwards, and whether the
hook has fired. -/
structure Outcome where
  response : Response
  handler : Handler
  stop : StopSignal
  fired : Bool
  deriving DecidableEq, Repr

/-- The verdict on a call of the handler's own method, with policy and stop signal afterwards. -/
def decide (h : Handler) (stop : StopSignal) (r : Request) : Verdict × ReplyPolicy × StopSignal :=
  match h.policy with
  | .always => (.acknowledge, .always, stop)
  | .countThenStop counter => match counter.check with
    | (.act, next) => (.acknowledge, .countThenStop next, stop)
    | (.limitReached, next) =>
      (.acknowledge, .countThenStop next, stop.trigger (.replyLimit h.method))
    | (.exhausted, next) => (.withhold, .countThenStop next, stop)
  | .bySequence seen first duplicate => match r.key? with
    | none => (.acknowledge, .bySequence seen first duplicate, stop)
    | some key =>
      let (new, seen) := seen.observe key
      (if new then first else duplicate, .bySequence seen first duplicate, stop)

def respond (h : Handler) : Verdict → Response
  | .acknowledge => .reply (h.profile.reply h.method)
  | .withhold => .withhold

def countHook (hook : Option EveryNth) : Bool × Option EveryNth :=
  match hook with
  | none => (false, none)
  | some every =>
    let (fired, every) := every.decide
    (fired, some every)

/-- A call of another method is not counted and changes nothing. -/
def handle (h : Handler) (stop : StopSignal) (r : Request) : Outcome :=
  if r.method = h.method then
    let (fired, hook) := countHook h.hook
    let (verdict, policy, stop) := h.decide stop r
    ⟨h.respond verdict, { h with policy, hook, invocations := h.invocations + 1 }, stop, fired⟩
  else ⟨.unimplemented r.method, h, stop, false⟩

theorem handle_of_method_eq {h : Handler} {r : Request} (hm : r.method = h.method)
    (stop : StopSignal) : h.handle stop r =
      ⟨h.respond (h.decide stop r).1,
        { h with
          policy := (h.decide stop r).2.1
          hook := (countHook h.hook).2
          invocations := h.invocations + 1 },
        (h.decide stop r).2.2, (countHook h.hook).1⟩ := by
  simp [handle, hm]

theorem handle_of_method_ne {h : Handler} {r : Request} (hm : r.method ≠ h.method)
    (stop : StopSignal) : h.handle stop r = ⟨.unimplemented r.method, h, stop, false⟩ := by
  simp [handle, hm]

@[simp] theorem method_handle (h : Handler) (stop : StopSignal) (r : Request) :
    (h.handle stop r).handler.method = h.method := by
  simp only [handle]; split <;> rfl

@[simp] theorem profile_handle (h : Handler) (stop : StopSignal) (r : Request) :
    (h.handle stop r).handler.profile = h.profile := by
  simp only [handle]; split <;> rfl

end Handler
end ScriptedPeer
