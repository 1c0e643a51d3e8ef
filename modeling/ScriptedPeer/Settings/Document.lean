import ScriptedPeer.Settings
import ScriptedPeer.Toml.Document

/-!
# Settings files

Settings are kept in the table `neighbor` of a TOML document. Each key may be left out, and keys
that are no settings are passed over. A value of another kind than its key asks for, or out of range,
makes the whole document unusable: no setting is ever rounded, cut or silently left at its default.
An array in place of the table gives the first settings in order.
-/

namespace ScriptedPeer.Settings

/-- A setting as it stands in a file. -/
structure Field where
  key : String
  write : Settings → String
  /-- The settings with this one changed, if the value fits. -/
  put : Toml.Value → Settings → Option Settings

namespace Field

def text (key : String) (get : Settings → String) (set : String → Settings → Settings) : Field where
  key
  write s := Toml.Quoted.write (get s)
  put v s := v.text?.map (set · s)

def word32 (key : String) (get : Settings → UInt32) (set : UInt32 → Settings → Settings) :
    Field where
  key
  write s := toString (get s).toNat
  put v s := (v.natural? 4294967295).map fun n => set (.ofNat n) s

def word64 (key : String) (get : Settings → UInt64) (set : UInt64 → Settings → Settings) :
    Field where
  key
  write s := toString (get s).toNat
  put v s := (v.natural? 18446744073709551615).map fun n => set (.ofNat n) s

end Field

def fields : List Field :=
  [.text "identity" identity fun a s => { s with identity := a },
    .text "nickname" nickname fun a s => { s with nickname := a },
    .word32 "reply_limit" replyLimit fun n s => { s with replyLimit := n },
    .word64 "request_interval_ms" requestInterval fun n s => { s with requestInterval := n },
    .word32 "request_bound" requestBound fun n s => { s with requestBound := n },
    .word32 "greet_attempts" greetAttempts fun n s => { s with greetAttempts := n },
    .word32 "tell_every_nth_received" tellEvery fun n s => { s with tellEvery := n },
    .word32 "narrate_messages" narrateLength fun n s => { s with narrateLength := n },
    .word64 "call_timeout_ms" callTimeout fun n s => { s with callTimeout := n },
    .word64 "drain_timeout_ms" drainTimeout fun n s => { s with drainTimeout := n }]

def putEntry (s : Settings) (entry : String × Toml.Value) : Option Settings :=
  match fields.find? (·.key == entry.1) with
  | some f => f.put entry.2 s
  | none => some s

def ofTable (t : Toml.Table) : Option Settings := t.foldlM putEntry {}

/-- Values after the last setting are passed over. -/
def ofArray (vs : List Toml.Value) : Option Settings :=
  (fields.zip vs).foldlM (fun s (f, v) => f.put v s) {}

/-- The table that holds the settings. -/
def tableName : String := "neighbor"

/-- A moment counts as a table without a setting. -/
def ofValue : Toml.Value → Option Settings
  | .table t => ofTable t
  | .array vs => ofArray vs
  | .moment => some {}
  | .text _ | .integer _ | .real | .truth _ => none

def ofDocument (t : Toml.Table) : Option Settings :=
  match t.lookup tableName with
  | some v => ofValue v
  | none => some {}

def parse (text : String) : Option Settings := (Toml.read text).bind ofDocument

def write (s : Settings) : String :=
  "[" ++ tableName ++ "]\n" ++ String.join (fields.map fun f => f.key ++ " = " ++ f.write s ++ "\n")

/-- A settings file to start from, with every default. -/
def template : String :=
  "# Dummy neighbor configuration\n# Every key is optional.\n\n" ++ write {}

end ScriptedPeer.Settings
