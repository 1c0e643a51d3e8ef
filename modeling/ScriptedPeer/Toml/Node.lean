import ScriptedPeer.Toml.Value

/-!
# Growing a document

While a document is read its tables grow. How a table came into being decides what may still be done
with it: a header opens a table once and for all; a table that was only passed through on the way to
a header can be opened later; a table that was made by a dotted key can get more keys in this way,
and only in this way. A value that has been given is never changed.
-/

namespace ScriptedPeer.Toml

/-- A key is a path of names: where a table is looked for, and the name that is given in it. -/
structure Key where
  parents : List String
  name : String
  deriving DecidableEq, Repr

def Key.path (k : Key) : List String := k.parents ++ [k.name]

/-- How a table came into being. -/
inductive Origin where
  | header
  | passedThrough
  | dottedKey
  deriving DecidableEq, Repr

inductive Node where
  | value (v : Value)
  | table (origin : Origin) (entries : List (String × Node))
  /-- An array of tables, each begun by a header. Only the last one grows. -/
  | series (earlier : List (List (String × Node))) (last : List (String × Node))

abbrev Branch := List (String × Node)

namespace Branch

/-- Gives a name, or gives it anew. -/
def put (name : String) (n : Node) : Branch → Branch
  | [] => [(name, n)]
  | (other, m) :: rest => if other = name then (name, n) :: rest else (other, m) :: put name n rest

/-- Changes the table at the end of a path. Tables that are missing on the way are made. By a dotted
key no table can be entered that has its own header. -/
def alter (dotted : Bool) (change : Origin → Branch → Option Branch) :
    List String → Origin → Branch → Option Branch
  | [], origin, b => change origin b
  | name :: path, _, b =>
    match b.lookup name with
    | none => do
      let origin := if dotted then .dottedKey else .passedThrough
      return b.put name (.table origin (← alter dotted change path origin []))
    | some (.value _) => none
    | some (.series earlier last) => do
      return b.put name (.series earlier (← alter dotted change path .header last))
    | some (.table origin inner) =>
      if dotted && origin == .header then none
      else do return b.put name (.table origin (← alter dotted change path origin inner))

/-- Gives a value to a key in the table `b`. Each name is given once, and no key of several names
reaches a table that was not made by such keys. -/
def assign (k : Key) (v : Value) (origin : Origin) (b : Branch) : Option Branch :=
  alter true
    (fun origin b =>
      if (origin == .dottedKey) == k.parents.isEmpty then none
      else if (b.lookup k.name).isSome then none
      else some (b.put k.name (.value v)))
    k.parents origin b

/-- Gives a value to a key below the header `path`. -/
def assignBelow (path : List String) (k : Key) (v : Value) (b : Branch) : Option Branch :=
  alter false (assign k v) path .header b

/-- Opens the table of a header. -/
def openTable (k : Key) (b : Branch) : Option Branch :=
  alter false
    (fun _ b => match b.lookup k.name with
      | none => some (b.put k.name (.table .header []))
      | some (.table .passedThrough inner) => some (b.put k.name (.table .header inner))
      | some _ => none)
    k.parents .header b

/-- Opens the next table of a series. -/
def openNext (k : Key) (b : Branch) : Option Branch :=
  alter false
    (fun _ b => match b.lookup k.name with
      | none => some (b.put k.name (.series [] []))
      | some (.series earlier last) => some (b.put k.name (.series (earlier ++ [last]) []))
      | some _ => none)
    k.parents .header b

end Branch

mutual

/-- What a node has come to. -/
def Node.finish : Node → Value
  | .value v => v
  | .table _ b => .table (finishBranch b)
  | .series earlier last => .array (finishAll earlier ++ [.table (finishBranch last)])

def finishBranch : List (String × Node) → Table
  | [] => []
  | (name, n) :: rest => (name, n.finish) :: finishBranch rest

def finishAll : List (List (String × Node)) → List Value
  | [] => []
  | b :: rest => .table (finishBranch b) :: finishAll rest

end

end ScriptedPeer.Toml
