import ScriptedPeer.Toml.Reader

/-!
# Quoted text

A text is written between double quotes, where a backslash begins an escape, or between single
quotes, where every character stands for itself. Three quotes instead of one allow for ends of
lines, and the one that follows the opening quotes at once does not belong to the text.
-/

namespace ScriptedPeer.Toml.Quoted

/-- What a letter after a backslash stands for. -/
def escape? : Char → Option Char
  | 'b' => some '\x08'
  | 't' => some '\t'
  | 'n' => some '\n'
  | 'f' => some '\x0c'
  | 'r' => some '\r'
  | '"' => some '"'
  | '\\' => some '\\'
  | _ => none

/-- What the next character belongs to. -/
inductive Mode where
  /-- The text itself; blanks are skipped at the begin of a continued line. -/
  | plain (continued : Bool)
  /-- An escape whose backslash has been read. -/
  | escaped
  /-- The number of a character, in hexadecimal. -/
  | code (left value : Nat)
  /-- The rest of a line that is continued by a backslash. -/
  | folding
  deriving DecidableEq, Repr

/-- How many digits the number of a character has. -/
def codeLength? : Char → Option Nat
  | 'u' => some 4
  | 'U' => some 8
  | _ => none

/-- What a character after a backslash leads to: a mode, and perhaps a character of the text. -/
def afterBackslash (c : Char) : Option (Mode × List Char) :=
  match codeLength? c, escape? c with
  | some n, _ => some (.code n 0, [])
  | none, some d => some (.plain false, [d])
  | none, none => none

/-- The same for a digit in the number of a character, which has `left` digits to come. -/
def afterDigit (left value : Nat) (c : Char) : Option (Mode × List Char) :=
  match hexDigit? c with
  | none => none
  | some d =>
    let value := 16 * value + d
    if 1 < left then some (.code (left - 1) value, [])
    else if value.isValidChar then some (.plain false, [Char.ofNat value])
    else none

def close (taken : List Char) (rest : List Char) : Option (String × List Char) :=
  some (String.ofList taken.reverse, rest)

/-- A text up to its closing double quote. The characters taken are kept in reverse. -/
def basic (mode : Mode) (taken : List Char) : Reader String
  | [] => none
  | c :: rest =>
    match mode with
    | .escaped => match afterBackslash c with
      | some (mode, cs) => basic mode (cs ++ taken) rest
      | none => none
    | .code left value => match afterDigit left value c with
      | some (mode, cs) => basic mode (cs ++ taken) rest
      | none => none
    | .plain _ | .folding =>
      if c = '"' then close taken rest
      else if c = '\\' then basic .escaped taken rest
      else if isLineChar c then basic mode (c :: taken) rest
      else none

/-- A text up to its three closing double quotes. Up to two more before them belong to it. -/
def longBasic (mode : Mode) (taken : List Char) : Reader String
  | [] => none
  | '\r' :: '\n' :: rest =>
    match mode with
    | .plain false => longBasic mode ('\n' :: taken) rest
    | .plain true | .escaped | .folding => longBasic (.plain true) taken rest
    | .code .. => none
  | c :: rest =>
    match mode with
    | .code left value => match afterDigit left value c with
      | some (mode, cs) => longBasic mode (cs ++ taken) rest
      | none => none
    | .folding =>
      if c = '\n' then longBasic (.plain true) taken rest
      else if isSpace c then longBasic .folding taken rest
      else none
    | .escaped =>
      if c = '\n' then longBasic (.plain true) taken rest
      else if isSpace c then longBasic .folding taken rest
      else match afterBackslash c with
        | some (mode, cs) => longBasic mode (cs ++ taken) rest
        | none => none
    | .plain continued =>
      if c = '"' then match rest with
        | '"' :: '"' :: '"' :: '"' :: rest => close ('"' :: '"' :: taken) rest
        | '"' :: '"' :: '"' :: rest => close ('"' :: taken) rest
        | '"' :: '"' :: rest => close taken rest
        | _ => longBasic (.plain false) ('"' :: taken) rest
      else if c = '\\' then longBasic .escaped taken rest
      else if continued && (c == '\n' || isSpace c) then longBasic (.plain true) taken rest
      else if c = '\n' || isLineChar c then longBasic (.plain false) (c :: taken) rest
      else none

/-- A text up to its closing single quote. -/
def literal (taken : List Char) : Reader String
  | [] => none
  | c :: rest =>
    if c = '\'' then close taken rest
    else if isLineChar c then literal (c :: taken) rest
    else none

/-- A text up to its three closing single quotes. Up to two more before them belong to it. -/
def longLiteral (taken : List Char) : Reader String
  | [] => none
  | '\r' :: '\n' :: rest => longLiteral ('\n' :: taken) rest
  | '\'' :: '\'' :: '\'' :: '\'' :: '\'' :: rest => close ('\'' :: '\'' :: taken) rest
  | '\'' :: '\'' :: '\'' :: '\'' :: rest => close ('\'' :: taken) rest
  | '\'' :: '\'' :: '\'' :: rest => close taken rest
  | c :: rest => if c = '\n' || isLineChar c then longLiteral (c :: taken) rest else none

def skipLineEnd (cs : List Char) : List Char :=
  match lineEnd cs with
  | some (_, rest) => rest
  | none => cs

/-- A text in quotes on a single line. -/
def short : Reader String
  | '"' :: rest => basic (.plain false) [] rest
  | '\'' :: rest => literal [] rest
  | _ => none

/-- A text in quotes of any of the four forms. -/
def any : Reader String
  | '"' :: '"' :: '"' :: rest => longBasic (.plain false) [] (skipLineEnd rest)
  | '\'' :: '\'' :: '\'' :: rest => longLiteral [] (skipLineEnd rest)
  | cs => short cs

/-- A character as it is written between double quotes. -/
def writeChar (c : Char) : List Char :=
  if c = '"' ∨ c = '\\' then ['\\', c]
  else if isLineChar c then [c]
  else
    let digit (n : Nat) : Char := Nat.digitChar (c.toNat / Nat.pow 16 n % 16)
    ['\\', 'u', digit 3, digit 2, digit 1, digit 0]

def write (s : String) : String :=
  String.ofList ('"' :: s.toList.flatMap writeChar ++ ['"'])

end ScriptedPeer.Toml.Quoted
