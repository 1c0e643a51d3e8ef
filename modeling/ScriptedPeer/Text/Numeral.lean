/-!
# Decimal numerals

Numbers as people write them on a command line or in an identifier: an optional sign, then one or
more ASCII digits. Leading zeros are allowed, anything else is not.
-/

namespace ScriptedPeer.Text

def isDigit (c : Char) : Bool := '0' ≤ c && c ≤ '9'

def digitValue (c : Char) : Nat := c.toNat - '0'.toNat

/-- The number spelled by digits, the most significant first. -/
def ofDigits (cs : List Char) : Nat := cs.foldl (fun n c => 10 * n + digitValue c) 0

def digits? (cs : List Char) : Option Nat :=
  if cs ≠ [] ∧ cs.all isDigit then some (ofDigits cs) else none

/-- A numeral without a sign or with a plus, at most `bound`. -/
def unsigned? (bound : Nat) (cs : List Char) : Option Nat :=
  let number := match cs with
    | '+' :: rest => digits? rest
    | _ => digits? cs
  number.filter (· ≤ bound)

/-- A numeral with either sign, from zero to `bound`. The only one with a minus is zero itself. -/
def natural? (bound : Nat) (cs : List Char) : Option Nat :=
  match cs with
  | '-' :: rest => (digits? rest).filter (· = 0)
  | _ => unsigned? bound cs

@[simp] theorem digits?_nil : digits? [] = none := rfl
@[simp] theorem ofDigits_nil : ofDigits [] = 0 := rfl

theorem ofDigits_append_singleton (cs : List Char) (c : Char) :
    ofDigits (cs ++ [c]) = 10 * ofDigits cs + digitValue c := by simp [ofDigits]

end ScriptedPeer.Text
