import Mathlib
import ScriptedPeer.Proofs.Toml.Distinct
import ScriptedPeer.Settings.Document

/-!
# What a document says of the settings

Each setting has a key, a place in an array, and values that fit it. A document that gives a value
that does not fit cannot be used at all. Otherwise each setting is the value that is given for it, to
the letter, and its default if none is given; the order of the keys and what else stands in the
document make no difference.
-/

namespace ScriptedPeer

/-- The settings, in the order in which an array gives them. -/
inductive Setting where
  | identity
  | nickname
  | replyLimit
  | requestInterval
  | requestBound
  | greetAttempts
  | tellEvery
  | narrateLength
  | callTimeout
  | drainTimeout
  deriving DecidableEq, Repr

namespace Setting

def all : List Setting :=
  [identity, nickname, replyLimit, requestInterval, requestBound, greetAttempts, tellEvery,
    narrateLength, callTimeout, drainTimeout]

def key : Setting → String
  | identity => "identity"
  | nickname => "nickname"
  | replyLimit => "reply_limit"
  | requestInterval => "request_interval_ms"
  | requestBound => "request_bound"
  | greetAttempts => "greet_attempts"
  | tellEvery => "tell_every_nth_received"
  | narrateLength => "narrate_messages"
  | callTimeout => "call_timeout_ms"
  | drainTimeout => "drain_timeout_ms"

/-- The place of a setting in an array, from zero. -/
def place (m : Setting) : Nat := all.idxOf m

/-- The values that a setting can have: texts, or numbers of 32 or 64 bits. -/
def Fits : Setting → Toml.Value → Prop
  | identity, v | nickname, v => ∃ s, v = .text s
  | replyLimit, v | requestBound, v | greetAttempts, v | tellEvery, v | narrateLength, v =>
    ∃ n : Nat, v = .integer n ∧ n < UInt32.size
  | requestInterval, v | callTimeout, v | drainTimeout, v =>
    ∃ n : Nat, v = .integer n ∧ n < UInt64.size

end Setting

namespace Settings

/-- The value that stands for a setting in a file. -/
def values (s : Settings) : Setting → Toml.Value
  | .identity => .text s.identity
  | .nickname => .text s.nickname
  | .replyLimit => .integer s.replyLimit.toNat
  | .requestInterval => .integer s.requestInterval.toNat
  | .requestBound => .integer s.requestBound.toNat
  | .greetAttempts => .integer s.greetAttempts.toNat
  | .tellEvery => .integer s.tellEvery.toNat
  | .narrateLength => .integer s.narrateLength.toNat
  | .callTimeout => .integer s.callTimeout.toNat
  | .drainTimeout => .integer s.drainTimeout.toNat

variable {s s' : Settings} {v : Toml.Value}

theorem values_injective : Function.Injective values := by
  intro s s' h
  have hword {n n' : UInt32} (h : Toml.Value.integer n.toNat = .integer n'.toNat) : n = n' :=
    UInt32.toNat_inj.mp (Int.ofNat.inj (Toml.Value.integer.inj h))
  have hlong {n n' : UInt64} (h : Toml.Value.integer n.toNat = .integer n'.toNat) : n = n' :=
    UInt64.toNat_inj.mp (Int.ofNat.inj (Toml.Value.integer.inj h))
  cases s
  cases s'
  rw [Settings.mk.injEq]
  exact ⟨Toml.Value.text.inj (congrFun h .identity), Toml.Value.text.inj (congrFun h .nickname),
    hword (congrFun h .replyLimit), hlong (congrFun h .requestInterval),
    hword (congrFun h .requestBound), hword (congrFun h .greetAttempts),
    hword (congrFun h .tellEvery), hword (congrFun h .narrateLength),
    hlong (congrFun h .callTimeout), hlong (congrFun h .drainTimeout)⟩

theorem fits_values (s : Settings) (m : Setting) : m.Fits (s.values m) := by
  cases m with
  | identity | nickname => exact ⟨_, rfl⟩
  | replyLimit | requestBound | greetAttempts | tellEvery | narrateLength =>
    exact ⟨_, rfl, UInt32.toNat_lt_size _⟩
  | requestInterval | callTimeout | drainTimeout => exact ⟨_, rfl, UInt64.toNat_lt_size _⟩

/-- Any values that fit are those of some settings. -/
theorem exists_values {given : Setting → Toml.Value} (h : ∀ m : Setting, m.Fits (given m)) :
    ∃ s : Settings, s.values = given := by
  have hword {v : Toml.Value} (h : ∃ n : Nat, v = .integer n ∧ n < UInt32.size) :
      ∃ n : UInt32, .integer n.toNat = v := by
    obtain ⟨n, rfl, hlt⟩ := h
    exact ⟨.ofNat n, by rw [UInt32.toNat_ofNat_of_lt' hlt]⟩
  have hlong {v : Toml.Value} (h : ∃ n : Nat, v = .integer n ∧ n < UInt64.size) :
      ∃ n : UInt64, .integer n.toNat = v := by
    obtain ⟨n, rfl, hlt⟩ := h
    exact ⟨.ofNat n, by rw [UInt64.toNat_ofNat_of_lt' hlt]⟩
  obtain ⟨identity, hidentity⟩ := h .identity
  obtain ⟨nickname, hnickname⟩ := h .nickname
  obtain ⟨replyLimit, hreplyLimit⟩ := hword (h .replyLimit)
  obtain ⟨requestInterval, hrequestInterval⟩ := hlong (h .requestInterval)
  obtain ⟨requestBound, hrequestBound⟩ := hword (h .requestBound)
  obtain ⟨greetAttempts, hgreetAttempts⟩ := hword (h .greetAttempts)
  obtain ⟨tellEvery, htellEvery⟩ := hword (h .tellEvery)
  obtain ⟨narrateLength, hnarrateLength⟩ := hword (h .narrateLength)
  obtain ⟨callTimeout, hcallTimeout⟩ := hlong (h .callTimeout)
  obtain ⟨drainTimeout, hdrainTimeout⟩ := hlong (h .drainTimeout)
  refine ⟨⟨identity, nickname, replyLimit, requestInterval, requestBound, greetAttempts, tellEvery,
    narrateLength, callTimeout, drainTimeout⟩, funext fun m => ?_⟩
  cases m with
  | identity => exact hidentity.symm
  | nickname => exact hnickname.symm
  | replyLimit => exact hreplyLimit
  | requestInterval => exact hrequestInterval
  | requestBound => exact hrequestBound
  | greetAttempts => exact hgreetAttempts
  | tellEvery => exact htellEvery
  | narrateLength => exact hnarrateLength
  | callTimeout => exact hcallTimeout
  | drainTimeout => exact hdrainTimeout

end Settings

namespace Setting

open Settings

theorem all_place (m : Setting) : all[m.place]? = some m := by
  cases m <;> rfl

theorem mem_all (m : Setting) : m ∈ all := List.mem_of_getElem? m.all_place

theorem key_injective : Function.Injective key := by
  intro m n h
  have hdistinct : ∀ m ∈ all, ∀ n ∈ all, m.key = n.key → m = n := by decide
  exact hdistinct m m.mem_all n n.mem_all h

end Setting

namespace Settings

/-- A value that is put in becomes the value of the setting and leaves the others as they are. One
that does not fit is refused. -/
def Field.Puts (f : Field) (m : Setting) : Prop :=
  ∀ v s s', f.put v s = some s' ↔ s'.values = Function.update s.values m v

section

variable {m : Setting} {key : String}

/-- A field for a text takes every text, and nothing else. -/
theorem Field.puts_text {get : Settings → String} {set : String → Settings → Settings}
    (hget : ∀ s : Settings, s.values m = .text (get s))
    (hset : ∀ a s, (set a s).values = Function.update s.values m (.text a)) :
    (Field.text key get set).Puts m := by
  intro v s s'
  constructor
  · intro h
    obtain ⟨a, ha, rfl⟩ := Option.map_eq_some_iff.mp h
    cases v <;> cases ha
    exact hset _ s
  · intro h
    have hv : v = .text (get s') := by rw [← hget, h, Function.update_self]
    subst hv
    exact congrArg some (values_injective ((hset _ s).trans h.symm))

/-- Numbers of either width go to and fro in the same way. -/
theorem Field.puts_natural {Word : Type} {f : Field} {max : Nat} {ofNat : Nat → Word}
    {toNat : Word → Nat} {get : Settings → Word} {set : Word → Settings → Settings}
    (hput : ∀ v s, f.put v s = (v.natural? max).map fun n => set (ofNat n) s)
    (hto : ∀ n ≤ max, toNat (ofNat n) = n) (hof : ∀ n, ofNat (toNat n) = n)
    (hmax : ∀ n, toNat n ≤ max) (hget : ∀ s : Settings, s.values m = .integer (toNat (get s)))
    (hset : ∀ n s, (set n s).values = Function.update s.values m (.integer (toNat n))) :
    f.Puts m := by
  intro v s s'
  rw [hput]
  constructor
  · intro h
    obtain ⟨n, hn, rfl⟩ := Option.map_eq_some_iff.mp h
    obtain ⟨rfl, hle⟩ := Toml.Value.natural?_eq_some.mp hn
    rw [hset, hto n hle]
  · intro h
    have hv : v = .integer (toNat (get s')) := by rw [← hget, h, Function.update_self]
    refine Option.map_eq_some_iff.mpr ⟨_, Toml.Value.natural?_eq_some.mpr ⟨hv, hmax _⟩, ?_⟩
    rw [hof]
    apply values_injective
    rw [hset, h, hv]

theorem Field.puts_word32 {get : Settings → UInt32} {set : UInt32 → Settings → Settings}
    (hget : ∀ s : Settings, s.values m = .integer (get s).toNat)
    (hset : ∀ n s, (set n s).values = Function.update s.values m (.integer n.toNat)) :
    (Field.word32 key get set).Puts m :=
  puts_natural (fun _ _ => rfl) (fun _ h => UInt32.toNat_ofNat_of_lt' (Nat.lt_succ_of_le h))
    (fun _ => UInt32.ofNat_toNat) (fun n => Nat.le_of_lt_succ n.toNat_lt) hget hset

theorem Field.puts_word64 {get : Settings → UInt64} {set : UInt64 → Settings → Settings}
    (hget : ∀ s : Settings, s.values m = .integer (get s).toNat)
    (hset : ∀ n s, (set n s).values = Function.update s.values m (.integer n.toNat)) :
    (Field.word64 key get set).Puts m :=
  puts_natural (fun _ _ => rfl) (fun _ h => UInt64.toNat_ofNat_of_lt' (Nat.lt_succ_of_le h))
    (fun _ => UInt64.ofNat_toNat) (fun n => Nat.le_of_lt_succ n.toNat_lt) hget hset

end

/-- Every field takes just the values that fit the setting in its place. -/
theorem fields_put : List.Forall₂ Field.Puts fields Setting.all := by
  simp only [fields, Setting.all, List.forall₂_cons]
  refine ⟨Field.puts_text (fun _ => rfl) ?_, Field.puts_text (fun _ => rfl) ?_,
    Field.puts_word32 (fun _ => rfl) ?_, Field.puts_word64 (fun _ => rfl) ?_,
    Field.puts_word32 (fun _ => rfl) ?_, Field.puts_word32 (fun _ => rfl) ?_,
    Field.puts_word32 (fun _ => rfl) ?_, Field.puts_word32 (fun _ => rfl) ?_,
    Field.puts_word64 (fun _ => rfl) ?_, Field.puts_word64 (fun _ => rfl) ?_, .nil⟩
  all_goals
    intro a s
    funext m
    cases m <;> rfl

end Settings

namespace Setting

open Settings

theorem place_lt (m : Setting) : m.place < fields.length := by
  cases m <;> decide

/-- How the setting is read and written. -/
def field (m : Setting) : Field := fields.get ⟨m.place, m.place_lt⟩

theorem fields_eq : fields = all.map field := rfl

theorem key_field (m : Setting) : m.field.key = m.key := by
  cases m <;> rfl

theorem field_puts (m : Setting) : m.field.Puts m := by
  have h := fields_put
  rw [fields_eq, List.forall₂_map_left_iff, List.forall₂_same] at h
  exact h m m.mem_all

end Setting

namespace Settings

variable {s s' : Settings} {v : Toml.Value} {t : Toml.Table}

theorem putEntry_key (s : Settings) (m : Setting) (v : Toml.Value) :
    putEntry s (m.key, v) = m.field.put v s := by
  have hfind : fields.find? (·.key == m.key) = some m.field := by
    cases m <;> rfl
  rw [putEntry, hfind]

/-- A key that is none of a setting is passed over. -/
theorem putEntry_of_other {key : String} (h : ∀ m : Setting, m.key ≠ key) (s : Settings)
    (v : Toml.Value) : putEntry s (key, v) = some s := by
  have hfind : fields.find? (·.key == key) = none := by
    rw [Setting.fields_eq, List.find?_eq_none]
    intro f hf
    obtain ⟨m, -, rfl⟩ := List.mem_map.mp hf
    rw [m.key_field, beq_iff_eq]
    exact h m
  rw [putEntry, hfind]

/-- The values that a table gives, and others where it gives none. -/
def given (t : Toml.Table) (others : Setting → Toml.Value) : Setting → Toml.Value :=
  fun m => (t.lookup m.key).getD (others m)

theorem given_nil (others : Setting → Toml.Value) : given [] others = others := rfl

/-- With keys that occur once, an entry counts as if it had been a default. -/
theorem given_cons_key {m : Setting} (h : m.key ∉ t.map Prod.fst) (v : Toml.Value)
    (others : Setting → Toml.Value) :
    given ((m.key, v) :: t) others = given t (Function.update others m v) := by
  funext n
  rw [given, given, List.lookup_cons]
  by_cases hn : n = m
  · subst hn
    have hlater : t.lookup n.key = none := by
      rw [List.lookup_eq_none_iff]
      intro e he
      rw [bne_iff_ne]
      intro heq
      exact h (List.mem_map.mpr ⟨e, he, heq.symm⟩)
    rw [beq_self_eq_true, hlater, Function.update_self]
    rfl
  · have hne : (n.key == m.key) = false :=
      beq_eq_false_iff_ne.mpr fun heq => hn (Setting.key_injective heq)
    rw [hne, Function.update_of_ne hn]

theorem given_cons_other {key : String} (h : ∀ m : Setting, m.key ≠ key) (v : Toml.Value)
    (others : Setting → Toml.Value) : given ((key, v) :: t) others = given t others := by
  funext m
  rw [given, given, List.lookup_cons, beq_eq_false_iff_ne.mpr (h m)]

/-- What fits can be put in. -/
theorem exists_update {m : Setting} (h : m.Fits v) (s : Settings) :
    ∃ s' : Settings, s'.values = Function.update s.values m v := by
  apply exists_values
  intro n
  by_cases hn : n = m
  · subst hn
    rwa [Function.update_self]
  · rw [Function.update_of_ne hn]
    exact s.fits_values n

/-- Entries are put in one after the other, each for another key, so what comes out has the values
that are given and keeps the others. -/
theorem foldlM_putEntry_eq_some_iff (ht : (t.map Prod.fst).Nodup) :
    t.foldlM putEntry s = some s' ↔ s'.values = given t s.values := by
  induction t generalizing s with
  | nil =>
    rw [List.foldlM_nil, given_nil]
    constructor
    · intro h
      cases h
      rfl
    · intro h
      rw [values_injective h]
      rfl
  | cons entry t ih =>
    obtain ⟨key, v⟩ := entry
    rw [List.map_cons, List.nodup_cons] at ht
    obtain ⟨hkey, ht⟩ := ht
    rw [List.foldlM_cons]
    by_cases hm : ∃ m : Setting, m.key = key
    · obtain ⟨m, rfl⟩ := hm
      rw [putEntry_key, given_cons_key hkey]
      constructor
      · intro h
        obtain ⟨first, hfirst, h⟩ := Option.bind_eq_some_iff.mp h
        rw [(ih ht).mp h, (m.field_puts v s first).mp hfirst]
      · intro h
        -- No later entry changes this setting, so the value fits as it comes out in the end.
        have hv : s'.values m = v := by
          rw [h, ← given_cons_key hkey, given, List.lookup_cons_self]
          rfl
        obtain ⟨first, hfirst⟩ := exists_update (hv ▸ s'.fits_values m) s
        refine Option.bind_eq_some_iff.mpr ⟨first, (m.field_puts v s first).mpr hfirst, ?_⟩
        rw [ih ht, h, hfirst]
    · have hother (m : Setting) : m.key ≠ key := fun heq => hm ⟨m, heq⟩
      rw [putEntry_of_other hother, given_cons_other hother]
      exact ih ht

/-- A table in which every key occurs once can be used just if some settings are what it gives. -/
theorem ofTable_eq_some_iff (ht : (t.map Prod.fst).Nodup) :
    ofTable t = some s ↔ s.values = given t ({} : Settings).values :=
  foldlM_putEntry_eq_some_iff ht

/-- A table is refused for a value that does not fit, and for nothing else. -/
theorem ofTable_eq_none_iff (ht : (t.map Prod.fst).Nodup) :
    ofTable t = none ↔ ∃ (m : Setting) (v : Toml.Value), t.lookup m.key = some v ∧ ¬ m.Fits v := by
  constructor
  · intro h
    by_contra hfits
    obtain ⟨s, hs⟩ : ∃ s : Settings, s.values = given t ({} : Settings).values := by
      apply exists_values
      intro m
      rw [given]
      cases hlookup : t.lookup m.key with
      | none => exact fits_values {} m
      | some v =>
        by_contra hv
        exact hfits ⟨m, v, hlookup, hv⟩
    rw [(ofTable_eq_some_iff ht).mpr hs] at h
    cases h
  · rintro ⟨m, v, hlookup, hv⟩
    rw [Option.eq_none_iff_forall_ne_some]
    intro s hs
    have hvalues := congrFun ((ofTable_eq_some_iff ht).mp hs) m
    rw [given, hlookup, Option.getD_some] at hvalues
    exact hv (hvalues ▸ s.fits_values m)

/-- Tables that give the settings the same values come to the same. -/
theorem ofTable_congr {u : Toml.Table} (ht : (t.map Prod.fst).Nodup) (hu : (u.map Prod.fst).Nodup)
    (h : ∀ m : Setting, t.lookup m.key = u.lookup m.key) : ofTable t = ofTable u := by
  ext s
  rw [ofTable_eq_some_iff ht, ofTable_eq_some_iff hu]
  have hgiven : given t ({} : Settings).values = given u ({} : Settings).values := by
    funext m
    rw [given, given, h]
  rw [hgiven]

/-! ## Arrays -/

theorem nodup_keys_zip {keys : List String} (h : keys.Nodup) (vs : List Toml.Value) :
    ((keys.zip vs).map Prod.fst).Nodup := by
  induction keys generalizing vs with
  | nil => exact .nil
  | cons key keys ih =>
    cases vs with
    | nil => exact .nil
    | cons v vs =>
      obtain ⟨hkey, h⟩ := List.nodup_cons.mp h
      rw [List.zip_cons_cons, List.map_cons, List.nodup_cons]
      refine ⟨fun hmem => ?_, ih h vs⟩
      obtain ⟨e, he, hfirst⟩ := List.mem_map.mp hmem
      have hlater : e.1 ∈ keys := (List.of_mem_zip he).1
      rw [hfirst] at hlater
      exact hkey hlater

/-- An array gives the setting in each place the value from the same place. -/
theorem lookup_zip {keys : List String} (h : keys.Nodup) (vs : List Toml.Value) {i : Nat}
    {key : String} (hi : keys[i]? = some key) : (keys.zip vs).lookup key = vs[i]? := by
  induction keys generalizing vs i with
  | nil => cases hi
  | cons first keys ih =>
    cases vs with
    | nil => rfl
    | cons v vs =>
      obtain ⟨hfirst, h⟩ := List.nodup_cons.mp h
      rw [List.zip_cons_cons, List.lookup_cons]
      cases i with
      | zero =>
        cases hi
        rw [beq_self_eq_true]
        rfl
      | succ i =>
        have hmem : key ∈ keys := List.mem_of_getElem? hi
        have hne : (key == first) = false :=
          beq_eq_false_iff_ne.mpr fun heq => hfirst (heq ▸ hmem)
        rw [hne]
        exact ih h vs hi

theorem nodup_settingKeys : (Setting.all.map Setting.key).Nodup := by decide

/-- An array comes to the same as a table of its values under the first keys. -/
theorem ofArray_eq_ofTable_zip (vs : List Toml.Value) :
    ofArray vs = ofTable ((Setting.all.map Setting.key).zip vs) := by
  rw [ofArray, ofTable, Setting.fields_eq, List.zip_map_left, List.zip_map_left, List.foldlM_map,
    List.foldlM_map]
  congr 1
  funext s e
  exact (putEntry_key s e.1 e.2).symm

/-- So any table will do in which each setting has the value from its place in the array. -/
theorem ofArray_eq_ofTable {vs : List Toml.Value} {u : Toml.Table} (hu : (u.map Prod.fst).Nodup)
    (h : ∀ m : Setting, u.lookup m.key = vs[m.place]?) : ofArray vs = ofTable u := by
  rw [ofArray_eq_ofTable_zip]
  refine ofTable_congr (nodup_keys_zip nodup_settingKeys vs) hu fun m => ?_
  have hplace : (Setting.all.map Setting.key)[m.place]? = some m.key := by
    rw [List.getElem?_map, m.all_place]
    rfl
  rw [h, lookup_zip nodup_settingKeys vs hplace]

/-! ## Documents -/

theorem ofDocument_of_lookup (h : t.lookup tableName = some v) : ofDocument t = ofValue v := by
  rw [ofDocument, h]

theorem ofDocument_of_absent (h : t.lookup tableName = none) : ofDocument t = some {} := by
  rw [ofDocument, h]

/-- The keys of a table inside a document are distinct, too. -/
theorem nodup_of_lookup {u : Toml.Table} {name : String} (ht : (Toml.Value.table t).Distinct)
    (h : t.lookup name = some (.table u)) : (u.map Prod.fst).Nodup := by
  obtain ⟨before, after, rfl, -⟩ := List.lookup_eq_some_iff.mp h
  exact (ht.of_entry (name, .table u) (by simp)).nodup_keys

/-- A text that is a document gives each key once. Of such a document only the settings in its table
matter. Each of them is the value that is given for its key, and its default where none is given;
a value that does not fit a setting, and nothing else, makes the table unusable. An array does the
same as a table in which each setting has the value from its place. A moment does the same as a table
without settings, and no other value can stand in the place of the table. -/
theorem ofDocument_given :
    (∀ text, (Toml.read text = none → parse text = none) ∧
      ∀ t, Toml.read text = some t → (Toml.Value.table t).Distinct ∧ parse text = ofDocument t) ∧
    ∀ t : Toml.Table, (Toml.Value.table t).Distinct →
      (t.lookup tableName = none → ofDocument t = some {}) ∧
      (∀ u, t.lookup tableName = some (.table u) →
        (∀ s, ofDocument t = some s ↔
          ∀ m : Setting, s.values m = (u.lookup m.key).getD (({} : Settings).values m)) ∧
        (ofDocument t = none ↔
          ∃ (m : Setting) (v : Toml.Value), u.lookup m.key = some v ∧ ¬ m.Fits v)) ∧
      (∀ vs, t.lookup tableName = some (.array vs) →
        ∀ t' u, (Toml.Value.table t').Distinct → t'.lookup tableName = some (.table u) →
          (∀ m : Setting, u.lookup m.key = vs[m.place]?) → ofDocument t = ofDocument t') ∧
      (t.lookup tableName = some .moment → ofDocument t = some {}) ∧
      ∀ v, t.lookup tableName = some v → (∀ u, v ≠ .table u) → (∀ vs, v ≠ .array vs) →
        v ≠ .moment → ofDocument t = none := by
  refine ⟨fun text => ⟨fun h => ?_, fun t h => ⟨Toml.distinct_of_read h, ?_⟩⟩, fun t ht =>
    ⟨ofDocument_of_absent, fun u hu => ?_, fun vs hvs t' u ht' hu h => ?_, ofDocument_of_lookup,
      fun v hv htable harray hmoment => ?_⟩⟩
  · rw [parse, h]
    rfl
  · rw [parse, h]
    rfl
  · have hnodup := nodup_of_lookup ht hu
    rw [ofDocument_of_lookup hu]
    refine ⟨fun s => ?_, ofTable_eq_none_iff hnodup⟩
    exact (ofTable_eq_some_iff hnodup).trans funext_iff
  · rw [ofDocument_of_lookup hvs, ofDocument_of_lookup hu]
    exact ofArray_eq_ofTable (nodup_of_lookup ht' hu) h
  · rw [ofDocument_of_lookup hv]
    cases v with
    | table u => exact absurd rfl (htable u)
    | array vs => exact absurd rfl (harray vs)
    | moment => exact absurd rfl hmoment
    | text s | integer n | real | truth b => rfl

/-- The greatest limit is kept as it stands, after a key that is no setting and before one that an
array would give first. One more is refused, in a table as well as in an array. A moment is taken in
place of the table, but a truth value is not. -/
theorem ofDocument_given_greatest :
    (∃ s, parse "[neighbor]\nsize = []\nreply_limit = 4294967295\nidentity = 'a'" = some s ∧
      s.values .replyLimit = .integer 4294967295 ∧ s.values .identity = .text "a" ∧
      s.values .nickname = .text "dummy") ∧
    ofDocument [(tableName, .table [("reply_limit", .integer 4294967296)])] = none ∧
    ofDocument [(tableName, .array [.text "a", .text "b", .integer 4294967296])] = none ∧
    ofDocument [(tableName, .moment)] = some {} ∧
    ofDocument [(tableName, .truth true)] = none := by
  obtain ⟨htext, htree⟩ := ofDocument_given
  have hlarge : ¬ Setting.Fits .replyLimit (.integer 4294967296) := by
    rintro ⟨n, hn, hlt⟩
    have hsize : (4294967296 : Int) = n := Toml.Value.integer.inj hn
    rw [UInt32.size] at hlt
    omega
  refine ⟨?_, ?_, ?_, ?_, ?_⟩
  · have hread : Toml.read "[neighbor]\nsize = []\nreply_limit = 4294967295\nidentity = 'a'" =
        some [("neighbor", .table [("size", .array []), ("reply_limit", .integer 4294967295),
          ("identity", .text "a")])] := by
      cbv
    obtain ⟨hdistinct, hparse⟩ := (htext _).2 _ hread
    obtain ⟨-, htable, -⟩ := htree _ hdistinct
    refine ⟨{ identity := "a", replyLimit := 4294967295 }, ?_, rfl, rfl, rfl⟩
    rw [hparse, (htable _ rfl).1]
    intro m
    cases m <;> rfl
  · obtain ⟨-, htable, -⟩ := htree [(tableName, .table [("reply_limit", .integer 4294967296)])]
      (.single (.single (.integer _)))
    exact (htable _ rfl).2.mpr ⟨.replyLimit, _, rfl, hlarge⟩
  · let vs : List Toml.Value := [.text "a", .text "b", .integer 4294967296]
    let u : Toml.Table :=
      [("identity", .text "a"), ("nickname", .text "b"), ("reply_limit", .integer 4294967296)]
    have hvs : (Toml.Value.array vs).Distinct := by
      refine .array (List.forall_mem_cons.mpr ⟨.text _, List.forall_mem_cons.mpr ⟨.text _, ?_⟩⟩)
      exact List.forall_mem_singleton.mpr (.integer _)
    have hu : (Toml.Value.table u).Distinct := by
      refine .table (by decide) ?_
      exact List.forall_mem_cons.mpr ⟨.text _, List.forall_mem_cons.mpr ⟨.text _,
        List.forall_mem_singleton.mpr (.integer _)⟩⟩
    obtain ⟨-, -, harray, -⟩ := htree [(tableName, .array vs)] (.single hvs)
    obtain ⟨-, htable, -⟩ := htree [(tableName, .table u)] (.single hu)
    have hsame : ofDocument [(tableName, .array vs)] = ofDocument [(tableName, .table u)] :=
      harray vs rfl _ u (.single hu) rfl fun m => by cases m <;> rfl
    rw [hsame]
    exact (htable u rfl).2.mpr ⟨.replyLimit, _, rfl, hlarge⟩
  · obtain ⟨-, -, -, hmoment, -⟩ := htree [(tableName, .moment)] (.single .moment)
    exact hmoment rfl
  · obtain ⟨-, -, -, -, hother⟩ := htree [(tableName, .truth true)] (.single (.truth _))
    exact hother _ rfl (by simp) (by simp) (by simp)

/-- A time of day is no table, and is not refused in its place either. -/
theorem parse_timeOfDay :
    Toml.read "neighbor = 07:32:00" = some [("neighbor", .moment)] ∧
    parse "neighbor = 07:32:00" = some {} := ⟨by cbv, by decide +kernel⟩

end Settings

end ScriptedPeer
