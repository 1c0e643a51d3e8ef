import ScriptedPeer.Handler

/-!
# Service tables

A service table has at most one handler for each method and hands every call to the handler of its
method. Calls of methods that nobody handles are answered as unimplemented. A call leaves its
handler in the place where it was.
-/

namespace ScriptedPeer

structure ServiceTable where
  handlers : ByMethod (Option Handler)
  /-- Every handler stands at the method it answers. -/
  placed : ∀ m h, handlers.get m = some h → h.method = m
  deriving DecidableEq, Repr

namespace ServiceTable

def empty : ServiceTable where
  handlers := .all none
  placed m h hh := by
    rw [ByMethod.get_all] at hh
    cases hh

def get? (t : ServiceTable) (m : Method) : Option Handler := t.handlers.get m

/-- The handler takes the place of an earlier one of its method. -/
def register (t : ServiceTable) (h : Handler) : ServiceTable where
  handlers := t.handlers.set h.method (some h)
  placed m g hg := by
    by_cases hm : m = h.method
    · subst hm
      rw [ByMethod.get_set_self] at hg
      cases hg
      rfl
    · rw [ByMethod.get_set_of_ne _ _ hm] at hg
      exact t.placed m g hg

/-- The table without a handler for `m`. -/
def remove (t : ServiceTable) (m : Method) : ServiceTable where
  handlers := t.handlers.set m none
  placed n g hg := by
    by_cases hn : n = m
    · subst hn
      rw [ByMethod.get_set_self] at hg
      cases hg
    · rw [ByMethod.get_set_of_ne _ _ hn] at hg
      exact t.placed n g hg

def ofHandlers (hs : List Handler) : ServiceTable := hs.foldl register empty

def handles (t : ServiceTable) (m : Method) : Bool := (t.get? m).isSome

/-- The methods that are handled, in protocol order. -/
def methods (t : ServiceTable) : List Method := Method.all.filter t.handles

def isEmpty (t : ServiceTable) : Bool := t.methods.isEmpty

/-- Whether some handler could still fire a trigger. -/
def hasHook (t : ServiceTable) : Bool :=
  Method.all.any fun m => match t.get? m with
    | some h => h.hook.isSome
    | none => false

def text (t : ServiceTable) : String :=
  "ServiceTable \x7b methods: [" ++ ", ".intercalate (t.methods.map Method.name) ++ "] \x7d"

structure Outcome where
  response : Response
  table : ServiceTable
  stop : StopSignal
  fired : Bool
  deriving DecidableEq, Repr

def dispatch (t : ServiceTable) (stop : StopSignal) (r : Request) : Outcome :=
  match t.get? r.method with
  | none => ⟨.unimplemented r.method, t, stop, false⟩
  | some h =>
    let done := h.handle stop r
    ⟨done.response, t.register done.handler, done.stop, done.fired⟩

@[simp] theorem get?_register_self (t : ServiceTable) (h : Handler) :
    (t.register h).get? h.method = some h := by simp [get?, register]

theorem get?_register_of_ne (t : ServiceTable) {h : Handler} {m : Method} (hm : m ≠ h.method) :
    (t.register h).get? m = t.get? m := by simp [get?, register, hm]

theorem method_of_get? {t : ServiceTable} {m : Method} {h : Handler} (hh : t.get? m = some h) :
    h.method = m := t.placed m h hh

theorem dispatch_of_get?_eq_none {t : ServiceTable} {r : Request} (h : t.get? r.method = none)
    (stop : StopSignal) : t.dispatch stop r = ⟨.unimplemented r.method, t, stop, false⟩ := by
  simp [dispatch, h]

end ServiceTable
end ScriptedPeer
