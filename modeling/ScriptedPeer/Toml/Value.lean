/-!
# TOML values

What a TOML document says, without the way in which it says it. A document is a table.
-/

namespace ScriptedPeer.Toml

inductive Value where
  | text (s : String)
  | integer (n : Int)
  /-- A number with a fraction or an exponent, an infinity, or what is no number. -/
  | real
  | truth (b : Bool)
  /-- A date, a time of day, or both. -/
  | moment
  | array (values : List Value)
  | table (entries : List (String × Value))

/-- A document gives each key of a table once. -/
abbrev Table := List (String × Value)

namespace Value

def text? : Value → Option String
  | text s => some s
  | _ => none

/-- An integer from zero to `bound`. Other numbers are not rounded to one. -/
def natural? (bound : Nat) : Value → Option Nat
  | integer n => if 0 ≤ n ∧ n ≤ bound then some n.toNat else none
  | _ => none

theorem natural?_eq_some {bound n : Nat} {v : Value} :
    v.natural? bound = some n ↔ v = .integer n ∧ n ≤ bound := by
  cases v <;> simp [natural?]
  omega

end Value
end ScriptedPeer.Toml
