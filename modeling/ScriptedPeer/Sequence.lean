/-!
# Sequence numbers and timestamps

Chat items are numbered from one. The numbers are 64-bit words; after the largest comes the largest
again, so a count that runs over never starts anew.
-/

namespace ScriptedPeer

structure SequenceNumber where
  value : UInt64
  deriving DecidableEq, Repr

namespace SequenceNumber

def maxValue : Nat := 18446744073709551615

def first : SequenceNumber := ⟨1⟩

/-- The number `count` places later, or the largest one. -/
def advance (s : SequenceNumber) (count : Nat) : SequenceNumber :=
  ⟨UInt64.ofNat (min (s.value.toNat + count) maxValue)⟩

def next (s : SequenceNumber) : SequenceNumber := s.advance 1

def text (s : SequenceNumber) : String := "#" ++ toString s.value.toNat

theorem value_advance (s : SequenceNumber) (count : Nat) :
    (s.advance count).value.toNat = min (s.value.toNat + count) maxValue := by
  have h : min (s.value.toNat + count) maxValue < 2 ^ 64 := by simp only [maxValue]; omega
  rw [advance, UInt64.toNat_ofNat']
  exact Nat.mod_eq_of_lt h

@[simp] theorem advance_zero (s : SequenceNumber) : s.advance 0 = s := by
  have h : s.value.toNat < 2 ^ 64 := s.value.toNat_lt
  have e : min (s.value.toNat + 0) maxValue = s.value.toNat := by simp only [maxValue]; omega
  cases s
  simp_all [advance]

theorem advance_add (s : SequenceNumber) (m n : Nat) :
    s.advance (m + n) = (s.advance m).advance n := by
  have h := value_advance s m
  simp only [advance] at h ⊢
  rw [h]
  congr 2
  omega

end SequenceNumber

/-- Milliseconds since the Unix epoch. -/
structure Timestamp where
  millis : UInt64
  deriving DecidableEq, Repr

def Timestamp.text (t : Timestamp) : String := toString t.millis.toNat ++ "ms"

end ScriptedPeer
