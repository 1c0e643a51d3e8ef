import ScriptedPeer.Toml.Reader

/-!
# TOML dates and times

A date and a time of day have two digits for every part and four for the year. A time may end with
a fraction of a second. After a date it may be followed by its distance from universal time.
-/

namespace ScriptedPeer.Toml.Moment

/-- Two digits. -/
def pair : Reader Nat
  | a :: b :: rest =>
    if Text.isDigit a && Text.isDigit b then some (Text.ofDigits [a, b], rest) else none
  | _ => none

def expect (c : Char) : List Char → Option (List Char)
  | [] => none
  | d :: rest => if c = d then some rest else none

def isLeapYear (year : Nat) : Bool := year % 4 = 0 && (year % 100 ≠ 0 || year % 400 = 0)

def daysIn (year month : Nat) : Nat :=
  if month = 2 then if isLeapYear year then 29 else 28
  else if month ∈ [4, 6, 9, 11] then 30
  else 31

/-- What follows a date. -/
def afterDate (cs : List Char) : Option (List Char) := do
  let (century, cs) ← pair cs
  let (year, cs) ← pair cs
  let cs ← expect '-' cs
  let (month, cs) ← pair cs
  let cs ← expect '-' cs
  let (day, cs) ← pair cs
  if 1 ≤ month ∧ month ≤ 12 ∧ 1 ≤ day ∧ day ≤ daysIn (100 * century + year) month then some cs
  else none

/-- What follows an hour and a minute. -/
def afterMinute (cs : List Char) : Option (List Char) := do
  let (hour, cs) ← pair cs
  let cs ← expect ':' cs
  let (minute, cs) ← pair cs
  if hour ≤ 23 ∧ minute ≤ 59 then some cs else none

/-- What follows a time of day. A minute may have a leap second. -/
def afterTime (cs : List Char) : Option (List Char) := do
  let cs ← expect ':' (← afterMinute cs)
  let (second, cs) ← pair cs
  if 60 < second then none
  else match cs with
    | '.' :: c :: rest => if Text.isDigit c then some (rest.dropWhile Text.isDigit) else none
    | _ => some cs

/-- What follows the distance from universal time, which may be left out. -/
def afterOffset : List Char → Option (List Char)
  | [] => some []
  | c :: rest =>
    if c = 'Z' ∨ c = 'z' then some rest
    else if c = '+' ∨ c = '-' then afterMinute rest
    else none

def isTime (cs : List Char) : Bool := afterTime cs = some []

def isDate (cs : List Char) : Bool := afterDate cs = some []

/-- A time of day as it may stand after a date. -/
def isTimeWithOffset (cs : List Char) : Bool := (afterTime cs).bind afterOffset = some []

/-- Whether this is a date, a time, or a date and a time with the letter between them. -/
def isMoment (cs : List Char) : Bool :=
  isTime cs || match afterDate cs with
    | none => false
    | some [] => true
    | some (c :: rest) => (c == 'T' || c == 't') && isTimeWithOffset rest

end ScriptedPeer.Toml.Moment
