/-!
# Methods

The four kinds of call that two chat peers exchange. Heartbeat and Greet serve discovery, Tell and
Narrate carry chat items, Narrate a whole stream of them.
-/

namespace ScriptedPeer

inductive Method where
  | heartbeat
  | greet
  | tell
  | narrate
  deriving DecidableEq, Repr

namespace Method

def all : List Method := [heartbeat, greet, tell, narrate]

/-- The place of a method in protocol order, also its number on the wire. -/
def index : Method → Nat
  | heartbeat => 0
  | greet => 1
  | tell => 2
  | narrate => 3

def name : Method → String
  | heartbeat => "Heartbeat"
  | greet => "Greet"
  | tell => "Tell"
  | narrate => "Narrate"

/-- Whether calls of the method carry sequence numbers. -/
def isSequenced : Method → Bool
  | tell | narrate => true
  | heartbeat | greet => false

theorem mem_all (m : Method) : m ∈ all := by cases m <;> simp [all]

theorem index_injective {m n : Method} (h : m.index = n.index) : m = n := by
  cases m <;> cases n <;> simp_all [index]

end Method

/-- One value for each method. -/
structure ByMethod (α : Type) where
  heartbeat : α
  greet : α
  tell : α
  narrate : α
  deriving DecidableEq, Repr

namespace ByMethod

variable {α : Type}

def all (a : α) : ByMethod α := ⟨a, a, a, a⟩

def get (t : ByMethod α) : Method → α
  | .heartbeat => t.heartbeat
  | .greet => t.greet
  | .tell => t.tell
  | .narrate => t.narrate

def set (t : ByMethod α) (m : Method) (a : α) : ByMethod α :=
  match m with
  | .heartbeat => { t with heartbeat := a }
  | .greet => { t with greet := a }
  | .tell => { t with tell := a }
  | .narrate => { t with narrate := a }

@[simp] theorem get_all (a : α) (m : Method) : (all a).get m = a := by cases m <;> rfl

@[simp] theorem get_set_self (t : ByMethod α) (m : Method) (a : α) : (t.set m a).get m = a := by
  cases m <;> rfl

@[simp] theorem get_set_of_ne (t : ByMethod α) {m n : Method} (a : α) (h : n ≠ m) :
    (t.set m a).get n = t.get n := by
  cases m <;> cases n <;> simp_all [get, set]

@[ext] theorem ext_get {s t : ByMethod α} (h : ∀ m, s.get m = t.get m) : s = t := by
  cases s; cases t
  have h1 := h .heartbeat; have h2 := h .greet; have h3 := h .tell; have h4 := h .narrate
  simp_all [get]

end ByMethod
end ScriptedPeer
