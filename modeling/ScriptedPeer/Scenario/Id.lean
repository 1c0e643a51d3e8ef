import ScriptedPeer.Settings
import ScriptedPeer.Text.Numeral

/-!
# Scenario identifiers

A scenario is known by two small numbers, written with a point between them. Identifiers are
ordered by the first number and then by the second, so 1.9 comes before 1.10.
-/

namespace ScriptedPeer

structure ScenarioId where
  major : UInt8
  minor : UInt8
  deriving DecidableEq, Repr

namespace ScenarioId

def text (i : ScenarioId) : String := toString i.major.toNat ++ "." ++ toString i.minor.toNat

def part? (cs : List Char) : Option UInt8 := (Text.unsigned? 255 cs).map UInt8.ofNat

/-- Blanks around the identifier are left out; the first point divides it. -/
def ofText? (s : String) : Option ScenarioId := do
  let cs := Text.trim s.toList
  guard (cs.contains '.')
  let major ← part? (cs.takeWhile (· != '.'))
  let minor ← part? ((cs.dropWhile (· != '.')).drop 1)
  return ⟨major, minor⟩

/-- The fault names the text as it was given. -/
def parse (s : String) : Except SettingsFault ScenarioId :=
  match ofText? s with
  | some i => .ok i
  | none => .error (.malformedScenario s)

def le (i j : ScenarioId) : Bool :=
  i.major < j.major || (i.major == j.major && i.minor ≤ j.minor)

/-- In order and each once. -/
def sortDistinct (is : List ScenarioId) : List ScenarioId := (is.mergeSort le).eraseReps

end ScenarioId
end ScriptedPeer
