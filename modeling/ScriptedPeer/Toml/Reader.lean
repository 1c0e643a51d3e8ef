import ScriptedPeer.Text.Numeral

/-!
# Reading from the front of a text

A reader takes something off the front of a text and leaves the rest, or finds nothing there that it
can take.
-/

namespace ScriptedPeer.Toml

abbrev Reader (α : Type) := List Char → Option (α × List Char)

/-- The blanks inside a line. -/
def isSpace (c : Char) : Bool := c == ' ' || c == '\t'

/-- May stand in a line: no control character but the tab. -/
def isLineChar (c : Char) : Bool := c == '\t' || (' ' ≤ c && c != '\x7f')

def skipSpace (cs : List Char) : List Char := cs.dropWhile isSpace

/-- A line ends with a line feed, which a carriage return may precede. -/
def lineEnd : Reader Unit
  | '\n' :: rest => some ((), rest)
  | '\r' :: '\n' :: rest => some ((), rest)
  | _ => none

/-- A comment lasts to the end of its line. -/
def skipComment : List Char → List Char
  | '#' :: rest => rest.dropWhile isLineChar
  | cs => cs

/-- Nothing but blanks and a comment are left in the line. -/
def restOfLine (cs : List Char) : Option (List Char) :=
  match skipComment (skipSpace cs) with
  | [] => some []
  | cs => (lineEnd cs).map Prod.snd

/-- Skips blanks, comments and ends of lines. -/
def skipLines (inComment : Bool) : List Char → List Char
  | [] => []
  | '\n' :: rest => skipLines false rest
  | '\r' :: '\n' :: rest => skipLines false rest
  | c :: rest =>
    if inComment && isLineChar c then skipLines true rest
    else if !inComment && isSpace c then skipLines false rest
    else if !inComment && c == '#' then skipLines true rest
    else c :: rest

def hexDigit? (c : Char) : Option Nat :=
  if Text.isDigit c then some (Text.digitValue c)
  else if 'a' ≤ c ∧ c ≤ 'f' then some (c.toNat - 'a'.toNat + 10)
  else if 'A' ≤ c ∧ c ≤ 'F' then some (c.toNat - 'A'.toNat + 10)
  else none

@[simp] theorem skipSpace_nil : skipSpace [] = [] := rfl
@[simp] theorem restOfLine_nil : restOfLine [] = some [] := rfl

end ScriptedPeer.Toml
