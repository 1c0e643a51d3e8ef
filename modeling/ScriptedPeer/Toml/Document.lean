import ScriptedPeer.Toml.Moment
import ScriptedPeer.Toml.Node
import ScriptedPeer.Toml.Number
import ScriptedPeer.Toml.Quoted

/-!
# TOML documents

A document is read line by line into statements: a key gets a value, or a header opens a table. The
statements then build the document, each below the last header before it. Arrays and tables in
braces can stand inside each other, and keys can be long, but only up to `deepest`.
-/

namespace ScriptedPeer.Toml

/-- Brackets stand inside each other at most this deep, and no key has more names. -/
def deepest : Nat := 79

/-- The characters of names without quotes. -/
def isBareChar (c : Char) : Bool := c.isAlphanum || c == '_' || c == '-'

def name : Reader String
  | [] => none
  | c :: rest =>
    if c = '"' ∨ c = '\'' then Quoted.short (c :: rest)
    else if isBareChar c then
      some (String.ofList ((c :: rest).takeWhile isBareChar), (c :: rest).dropWhile isBareChar)
    else none

/-- At most `count` names with points between them, and blanks around each. -/
def names : Nat → Reader (List String)
  | 0, _ => none
  | count + 1, cs => do
    let (first, cs) ← name (skipSpace cs)
    match skipSpace cs with
    | '.' :: cs => do
      let (more, cs) ← names count cs
      return (first :: more, cs)
    | cs => return ([first], cs)

def key (cs : List Char) : Option (Key × List Char) := do
  let (path, cs) ← names deepest cs
  let last ← path.getLast?
  return (⟨path.dropLast, last⟩, cs)

/-- A key, an equals sign and a value. -/
def pair (value : Reader Value) (cs : List Char) : Option ((Key × Value) × List Char) := do
  let (k, cs) ← key cs
  match cs with
  | '=' :: cs => do
    let (v, cs) ← value (skipSpace cs)
    return ((k, v), skipSpace cs)
  | _ => none

/-! ## Values -/

/-- The characters of values that have no quotes and no brackets. -/
def isPlainChar (c : Char) : Bool :=
  c.isAlphanum || c == '_' || c == '-' || c == '+' || c == '.' || c == ':'

def plain? (cs : List Char) : Option Value :=
  if cs = "true".toList then some (.truth true)
  else if cs = "false".toList then some (.truth false)
  else match Number.integer? cs with
    | some n => some (.integer n)
    | none =>
      if Number.isReal cs then some .real
      else if Moment.isMoment cs then some .moment
      else none

/-- A value without quotes and brackets. A date and a time may have one blank between them. -/
def plain (cs : List Char) : Option (Value × List Char) :=
  let token := cs.takeWhile isPlainChar
  match cs.dropWhile isPlainChar with
  | ' ' :: c :: rest =>
    if Moment.isDate token && Text.isDigit c then
      if Moment.isTimeWithOffset ((c :: rest).takeWhile isPlainChar) then
        some (.moment, (c :: rest).dropWhile isPlainChar)
      else none
    else (plain? token).map (·, ' ' :: c :: rest)
  | rest => (plain? token).map (·, rest)

/-- The values of an array after its opening bracket. Each takes a character at least, so that
`cs.length` is enough for `count`. -/
def elements (value : Reader Value) : Nat → Reader (List Value)
  | 0, _ => none
  | count + 1, cs =>
    match skipLines false cs with
    | ']' :: cs => some ([], cs)
    | cs => do
      let (v, cs) ← value cs
      match skipLines false cs with
      | ',' :: cs => do
        let (vs, cs) ← elements value count cs
        return (v :: vs, cs)
      | ']' :: cs => return ([v], cs)
      | _ => none

/-- The pairs of a table in braces, of which there is at least one. -/
def pairs (value : Reader Value) : Nat → Reader (List (Key × Value))
  | 0, _ => none
  | count + 1, cs => do
    let (p, cs) ← pair value cs
    match cs with
    | ',' :: cs => do
      let (ps, cs) ← pairs value count cs
      return (p :: ps, cs)
    | '\x7d' :: cs => return ([p], cs)
    | _ => none

/-- The table of some pairs. -/
def tableOf (ps : List (Key × Value)) : Option Value := do
  let b ← ps.foldlM (fun b (k, v) => Branch.assign k v .header b) []
  return .table (finishBranch b)

/-- A value with brackets at most `depth` deep. -/
def value : Nat → Reader Value
  | _, [] => none
  | depth, c :: rest =>
    if c = '"' ∨ c = '\'' then (Quoted.any (c :: rest)).map fun (s, cs) => (.text s, cs)
    else match c, depth with
      | '[', depth + 1 =>
        (elements (value depth) (rest.length + 1) rest).map fun (vs, cs) => (.array vs, cs)
      | '\x7b', depth + 1 =>
        match skipSpace rest with
        | '\x7d' :: cs => some (.table [], cs)
        | cs => do
          let (ps, cs) ← pairs (value depth) cs.length cs
          return (← tableOf ps, cs)
      | _, _ => plain (c :: rest)

/-! ## Lines -/

inductive Statement where
  | assign (key : Key) (value : Value)
  | openTable (key : Key)
  | openNext (key : Key)

/-- A header after its opening brackets. -/
def header (closing : List Char) (cs : List Char) : Option (Key × List Char) := do
  let (k, cs) ← key cs
  if cs.take closing.length = closing then
    let cs ← restOfLine (cs.drop closing.length)
    return (k, cs)
  else none

/-- The statement of a line that holds one. -/
def statement : Reader Statement
  | '[' :: '[' :: cs => (header [']', ']'] cs).map fun (k, cs) => (.openNext k, cs)
  | '[' :: cs => (header [']'] cs).map fun (k, cs) => (.openTable k, cs)
  | cs => do
    let ((k, v), cs) ← pair (value deepest) cs
    return (.assign k v, ← restOfLine cs)

/-- All statements. Each line takes a character at least. -/
def statements : Nat → List Char → Option (List Statement)
  | 0, cs => if cs = [] then some [] else none
  | count + 1, cs =>
    match skipLines false cs with
    | [] => some []
    | cs => do
      let (s, cs) ← statement cs
      return s :: (← statements count cs)

/-- A document under construction: the path of the last header, and what is there. -/
structure Draft where
  path : List String := []
  root : Branch := []

def Draft.add (d : Draft) : Statement → Option Draft
  | .assign k v => do return { d with root := ← d.root.assignBelow d.path k v }
  | .openTable k => do return ⟨k.path, ← d.root.openTable k⟩
  | .openNext k => do return ⟨k.path, ← d.root.openNext k⟩

/-- A mark that may stand before the text. -/
def skipMark : List Char → List Char
  | '\ufeff' :: cs => cs
  | cs => cs

/-- The document that a text spells, if it spells one. -/
def read (text : String) : Option Table := do
  let cs := skipMark text.toList
  let draft ← (← statements cs.length cs).foldlM Draft.add {}
  return finishBranch draft.root

end ScriptedPeer.Toml
