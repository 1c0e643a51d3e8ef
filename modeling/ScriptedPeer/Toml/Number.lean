import ScriptedPeer.Toml.Reader

/-!
# TOML numbers

Integers are written in decimal with a sign or without, or in base sixteen, eight or two without a
sign. They have 64 bits. Reals are decimal and have a fraction, an exponent or both. An underscore
may stand between any two digits. A decimal integer has no leading zero, also where it is the whole
part of a real.
-/

namespace ScriptedPeer.Toml.Number

/-- The digits of a numeral without the underscores between them. -/
def ungroup (isDigit : Char → Bool) : List Char → Option (List Char)
  | [] => none
  | [c] => if isDigit c then some [c] else none
  | c :: '_' :: rest => if isDigit c then (ungroup isDigit rest).map (c :: ·) else none
  | c :: rest => if isDigit c then (ungroup isDigit rest).map (c :: ·) else none

def digits? (cs : List Char) : Option (List Char) := ungroup Text.isDigit cs

/-- Whether there is a minus, and what follows the sign. -/
def splitSign : List Char → Bool × List Char
  | '-' :: rest => (true, rest)
  | '+' :: rest => (false, rest)
  | cs => (false, cs)

/-- The digits of a whole number without leading zeros. -/
def whole? (cs : List Char) : Option (List Char) :=
  match digits? cs with
  | some ['0'] => some ['0']
  | some ('0' :: _) => none
  | ds => ds

/-- A numeral in a base from two to sixteen. -/
def inBase? (base : Nat) (cs : List Char) : Option Nat := do
  let ds ← ungroup (fun c => (hexDigit? c).any (· < base)) cs
  return ds.foldl (fun n c => base * n + (hexDigit? c).getD 0) 0

def isInt64 (n : Int) : Bool := -9223372036854775808 ≤ n && n ≤ 9223372036854775807

def decimal? (cs : List Char) : Option Int := do
  let (negative, cs) := splitSign cs
  let n := Text.ofDigits (← whole? cs)
  return if negative then -(n : Int) else n

def integer? (cs : List Char) : Option Int :=
  let n := match cs with
    | '0' :: 'x' :: rest => (inBase? 16 rest).map Int.ofNat
    | '0' :: 'o' :: rest => (inBase? 8 rest).map Int.ofNat
    | '0' :: 'b' :: rest => (inBase? 2 rest).map Int.ofNat
    | _ => decimal? cs
  n.filter isInt64

/-- From here on a number rounds to infinity as a double: halfway from the greatest double to the
next power of two. -/
def doubleLimit : Nat := Nat.pow 2 1024 - Nat.pow 2 970

/-- Whether a numeral times a power of ten is too large for a double. Powers that settle the
question by themselves are not computed. -/
def overflows (digits : List Char) (exponent : Int) : Bool :=
  let n := Text.ofDigits digits
  if n = 0 then false
  else if 0 ≤ exponent then 310 ≤ exponent || doubleLimit ≤ n * Nat.pow 10 exponent.toNat
  else exponent.natAbs < digits.length && doubleLimit * Nat.pow 10 exponent.natAbs ≤ n

/-- An exponent of this size is far outside of every double; its further digits are passed over. -/
def exponentLimit : Nat := 65536

/-- The size of an exponent. -/
def exponentSize (ds : List Char) : Nat :=
  ds.foldl (fun n c => if n < exponentLimit then 10 * n + Text.digitValue c else n) 0

/-- An exponent with its letter; zero when there is none. -/
def exponent? : List Char → Option Int
  | [] => some 0
  | c :: rest =>
    if c = 'e' ∨ c = 'E' then do
      let (negative, cs) := splitSign rest
      let n := exponentSize (← digits? cs)
      return if negative then -(n : Int) else n
    else none

def isNumeralChar (c : Char) : Bool := Text.isDigit c || c == '_'

/-- Whether this is a real. One that is too large is refused, while one that is too small stands for
minus infinity. -/
def isReal (cs : List Char) : Bool :=
  let (negative, cs) := splitSign cs
  if cs = ['i', 'n', 'f'] ∨ cs = ['n', 'a', 'n'] then true
  else
    let afterWhole := cs.dropWhile isNumeralChar
    let (fraction, afterFraction) := match afterWhole with
      | '.' :: rest => (digits? (rest.takeWhile isNumeralChar), rest.dropWhile isNumeralChar)
      | rest => (some [], rest)
    match whole? (cs.takeWhile isNumeralChar), fraction, exponent? afterFraction with
    | some whole, some fraction, some exponent =>
      afterWhole ≠ [] && (negative || !overflows (whole ++ fraction) (exponent - fraction.length))
    | _, _, _ => false

end ScriptedPeer.Toml.Number
