import Mathlib.Data.List.Nodup
import ScriptedPeer.Toml.Document

/-!
# Each key once

A document that can be read gives each key of a table once, in itself as well as in all tables inside
it. The reader never gives a name a second time, and every step by which a document grows keeps this,
however deep the table is that grows.
-/

namespace ScriptedPeer.Toml

/-- Every table in the value gives each of its keys once. -/
inductive Value.Distinct : Value → Prop
  | text (s : String) : Distinct (.text s)
  | integer (n : Int) : Distinct (.integer n)
  | real : Distinct .real
  | truth (b : Bool) : Distinct (.truth b)
  | moment : Distinct .moment
  | array {vs : List Value} (values : ∀ v ∈ vs, Distinct v) : Distinct (.array vs)
  | table {t : Table} (keys : (t.map Prod.fst).Nodup) (entries : ∀ e ∈ t, Distinct e.2) :
    Distinct (.table t)

namespace Value.Distinct

theorem of_mem {vs : List Value} (h : Distinct (.array vs)) : ∀ v ∈ vs, v.Distinct := by
  cases h with
  | array values => exact values

theorem nodup_keys {t : Table} (h : Distinct (.table t)) : (t.map Prod.fst).Nodup := by
  cases h with
  | table keys entries => exact keys

theorem of_entry {t : Table} (h : Distinct (.table t)) : ∀ e ∈ t, e.2.Distinct := by
  cases h with
  | table keys entries => exact entries

theorem single {name : String} {v : Value} (h : v.Distinct) : Distinct (.table [(name, v)]) :=
  .table (List.nodup_singleton name) (List.forall_mem_singleton.mpr h)

end Value.Distinct

theorem finishBranch_eq_map (b : Branch) : finishBranch b = b.map fun e => (e.1, e.2.finish) := by
  induction b with
  | nil => rfl
  | cons e b ih => rw [finishBranch, ih, List.map_cons]

theorem finishAll_eq_map (bs : List Branch) :
    finishAll bs = bs.map fun b => .table (finishBranch b) := by
  induction bs with
  | nil => rfl
  | cons b bs ih => rw [finishAll, ih, List.map_cons]

namespace Branch

/-- The table that the branch would be by now gives each key once. -/
def Distinct (b : Branch) : Prop := Value.Distinct (.table (finishBranch b))

variable {b b' : Branch} {name : String} {n : Node}

/-- In a finished branch every key occurs once, and so they do in all that hangs on it. -/
theorem distinct_iff :
    b.Distinct ↔ (b.map Prod.fst).Nodup ∧ ∀ e ∈ b, e.2.finish.Distinct := by
  have hkeys : (finishBranch b).map Prod.fst = b.map Prod.fst := by
    rw [finishBranch_eq_map, List.map_map]
    rfl
  constructor
  · intro h
    refine ⟨hkeys ▸ h.nodup_keys, fun e he => ?_⟩
    refine h.of_entry (e.1, e.2.finish) ?_
    rw [finishBranch_eq_map]
    exact List.mem_map_of_mem he
  · rintro ⟨hnodup, hentries⟩
    refine .table (hkeys ▸ hnodup) fun e he => ?_
    rw [finishBranch_eq_map, List.mem_map] at he
    obtain ⟨e, he, rfl⟩ := he
    exact hentries e he

theorem distinct_nil : Distinct [] := .table .nil nofun

theorem distinct_series {earlier : List Branch} {last : Branch} :
    (Node.series earlier last).finish.Distinct ↔ ∀ b ∈ earlier ++ [last], b.Distinct := by
  have hfinish : (Node.series earlier last).finish =
      .array ((earlier ++ [last]).map fun b => .table (finishBranch b)) := by
    rw [Node.finish, finishAll_eq_map, List.map_append]
    rfl
  rw [hfinish]
  constructor
  · intro h b hb
    exact h.of_mem _ (List.mem_map_of_mem hb)
  · intro h
    refine .array fun v hv => ?_
    obtain ⟨b, hb, rfl⟩ := List.mem_map.mp hv
    exact h b hb

theorem Distinct.of_lookup (h : b.Distinct) (hn : b.lookup name = some n) : n.finish.Distinct := by
  obtain ⟨before, after, rfl, -⟩ := List.lookup_eq_some_iff.mp hn
  exact (distinct_iff.mp h).2 (name, n) (by simp)

theorem mem_put {e : String × Node} (h : e ∈ b.put name n) : e = (name, n) ∨ e ∈ b := by
  induction b with
  | nil => exact .inl (List.mem_singleton.mp h)
  | cons other b ih =>
    rw [put] at h
    split at h
    · exact (List.mem_cons.mp h).imp_right (List.mem_cons_of_mem _)
    · rcases List.mem_cons.mp h with rfl | h
      · exact .inr List.mem_cons_self
      · exact (ih h).imp_right (List.mem_cons_of_mem _)

theorem nodup_put (h : (b.map Prod.fst).Nodup) : ((b.put name n).map Prod.fst).Nodup := by
  induction b with
  | nil => exact List.nodup_singleton _
  | cons other b ih =>
    rw [List.map_cons, List.nodup_cons] at h
    rw [put]
    split
    · next heq => rwa [← heq, List.map_cons, List.nodup_cons]
    · next hne =>
      rw [List.map_cons, List.nodup_cons]
      refine ⟨fun hmem => ?_, ih h.2⟩
      obtain ⟨e, he, hkey⟩ := List.mem_map.mp hmem
      rcases mem_put he with rfl | he
      · exact hne hkey.symm
      · exact h.1 (List.mem_map.mpr ⟨e, he, hkey⟩)

/-- A branch stays distinct when a distinct node is put on it. -/
theorem Distinct.put (h : b.Distinct) (hn : n.finish.Distinct) : (b.put name n).Distinct := by
  obtain ⟨hnodup, hentries⟩ := distinct_iff.mp h
  refine distinct_iff.mpr ⟨nodup_put hnodup, fun e he => ?_⟩
  rcases mem_put he with rfl | he
  · exact hn
  · exact hentries e he

/-- Whatever is done to the table at the end of a path, the tables on the way to it give no key
twice. -/
theorem Distinct.alter {dotted : Bool} {change : Origin → Branch → Option Branch}
    (hchange : ∀ origin b b', b.Distinct → change origin b = some b' → b'.Distinct)
    {path : List String} {origin : Origin} (h : b.Distinct)
    (halter : Branch.alter dotted change path origin b = some b') : b'.Distinct := by
  induction path generalizing origin b b' with
  | nil => exact hchange origin b b' h halter
  | cons name path ih =>
    rw [Branch.alter] at halter
    split at halter
    · obtain ⟨inner, hinner, heq⟩ := Option.bind_eq_some_iff.mp halter
      cases heq
      exact h.put (ih distinct_nil hinner)
    · cases halter
    · next earlier last hlookup =>
      obtain ⟨inner, hinner, heq⟩ := Option.bind_eq_some_iff.mp halter
      cases heq
      have hseries := distinct_series.mp (h.of_lookup hlookup)
      refine h.put (distinct_series.mpr fun b hb => ?_)
      rcases List.mem_append.mp hb with hb | hb
      · exact hseries b (List.mem_append_left _ hb)
      · rw [List.mem_singleton.mp hb]
        exact ih (hseries last (List.mem_append_right _ (.head _))) hinner
    · next origin inner hlookup =>
      split at halter
      · cases halter
      · obtain ⟨inner', hinner, heq⟩ := Option.bind_eq_some_iff.mp halter
        cases heq
        exact h.put (ih (h.of_lookup hlookup) hinner)

theorem Distinct.assign {k : Key} {v : Value} {origin : Origin} (h : b.Distinct) (hv : v.Distinct)
    (hassign : b.assign k v origin = some b') : b'.Distinct := by
  refine h.alter (fun origin b b' hb hchange => ?_) hassign
  split at hchange
  · cases hchange
  · split at hchange
    · cases hchange
    · cases hchange
      exact hb.put hv

theorem Distinct.assignBelow {path : List String} {k : Key} {v : Value} (h : b.Distinct)
    (hv : v.Distinct) (hassign : b.assignBelow path k v = some b') : b'.Distinct :=
  h.alter (fun _ _ _ hb hchange => hb.assign hv hchange) hassign

theorem Distinct.openTable {k : Key} (h : b.Distinct) (hopen : b.openTable k = some b') :
    b'.Distinct := by
  refine h.alter (fun origin b b' hb hchange => ?_) hopen
  split at hchange
  · cases hchange
    exact hb.put distinct_nil
  · next inner hlookup =>
    cases hchange
    have hinner : Distinct inner := hb.of_lookup hlookup
    exact hb.put hinner
  · cases hchange

theorem Distinct.openNext {k : Key} (h : b.Distinct) (hopen : b.openNext k = some b') :
    b'.Distinct := by
  refine h.alter (fun origin b b' hb hchange => ?_) hopen
  split at hchange
  · cases hchange
    refine hb.put (distinct_series.mpr fun b hb => ?_)
    rw [List.mem_singleton.mp hb]
    exact distinct_nil
  · next earlier last hlookup =>
    cases hchange
    refine hb.put (distinct_series.mpr fun b' hb' => ?_)
    rcases List.mem_append.mp hb' with hb' | hb'
    · exact distinct_series.mp (hb.of_lookup hlookup) b' hb'
    · rw [List.mem_singleton.mp hb']
      exact distinct_nil
  · cases hchange

end Branch

/-- Whatever the reader takes off is of this kind. -/
def Reader.Yields {α : Type} (P : α → Prop) (r : Reader α) : Prop :=
  ∀ cs a rest, r cs = some (a, rest) → P a

/-- What every step keeps holds in the end, if there is one. -/
theorem foldlM_invariant {α β : Type} {P : β → Prop} {Q : α → Prop} {f : β → α → Option β}
    (hf : ∀ b a b', P b → Q a → f b a = some b' → P b') {as : List α} (has : ∀ a ∈ as, Q a)
    {b b' : β} (hb : P b) (h : as.foldlM f b = some b') : P b' := by
  induction as generalizing b with
  | nil =>
    cases h
    exact hb
  | cons a as ih =>
    rw [List.foldlM_cons] at h
    obtain ⟨next, hnext, h⟩ := Option.bind_eq_some_iff.mp h
    exact ih (fun a ha => has a (List.mem_cons_of_mem _ ha))
      (hf b a next hb (has a List.mem_cons_self) hnext) h

theorem distinct_of_plain? {cs : List Char} {v : Value} (h : plain? cs = some v) : v.Distinct := by
  unfold plain? at h
  repeat' split at h
  all_goals cases h
  all_goals constructor

theorem yields_plain : Reader.Yields Value.Distinct plain := by
  intro cs v rest h
  simp only [plain] at h
  split at h
  · split at h
    · split at h
      · cases h
        exact .moment
      · cases h
    · obtain ⟨v, hv, heq⟩ := Option.map_eq_some_iff.mp h
      cases heq
      exact distinct_of_plain? hv
  · obtain ⟨v, hv, heq⟩ := Option.map_eq_some_iff.mp h
    cases heq
    exact distinct_of_plain? hv

variable {value : Reader Value}

theorem yields_pair (hvalue : Reader.Yields Value.Distinct value) :
    Reader.Yields (fun p => p.2.Distinct) (pair value) := by
  intro cs p rest h
  simp only [pair, bind, Option.bind_eq_some_iff] at h
  obtain ⟨⟨k, cs'⟩, -, h⟩ := h
  split at h
  · obtain ⟨⟨v, left⟩, hv, heq⟩ := Option.bind_eq_some_iff.mp h
    cases heq
    exact hvalue _ v left hv
  · cases h

/-- The elements of an array are as distinct as the values that are read. -/
theorem yields_elements (hvalue : Reader.Yields Value.Distinct value) (count : Nat) :
    Reader.Yields (fun vs => ∀ v ∈ vs, v.Distinct) (elements value count) := by
  induction count with
  | zero => exact fun cs vs rest h => by cases h
  | succ count ih =>
    intro cs vs rest h
    rw [elements] at h
    split at h
    · cases h
      exact nofun
    · obtain ⟨⟨v, cs'⟩, hv, h⟩ := Option.bind_eq_some_iff.mp h
      have hfirst : v.Distinct := hvalue _ v cs' hv
      dsimp only at h
      split at h
      · obtain ⟨⟨more, left⟩, hmore, heq⟩ := Option.bind_eq_some_iff.mp h
        cases heq
        exact List.forall_mem_cons.mpr ⟨hfirst, ih _ more left hmore⟩
      · cases h
        exact List.forall_mem_singleton.mpr hfirst
      · cases h

theorem yields_pairs (hvalue : Reader.Yields Value.Distinct value) (count : Nat) :
    Reader.Yields (fun ps => ∀ p ∈ ps, p.2.Distinct) (pairs value count) := by
  induction count with
  | zero => exact fun cs ps rest h => by cases h
  | succ count ih =>
    intro cs ps rest h
    obtain ⟨⟨p, cs'⟩, hp, h⟩ := Option.bind_eq_some_iff.mp h
    have hfirst : p.2.Distinct := yields_pair hvalue cs p cs' hp
    dsimp only at h
    split at h
    · obtain ⟨⟨more, left⟩, hmore, heq⟩ := Option.bind_eq_some_iff.mp h
      cases heq
      exact List.forall_mem_cons.mpr ⟨hfirst, ih _ more left hmore⟩
    · cases h
      exact List.forall_mem_singleton.mpr hfirst
    · cases h

/-- An inline table is built by assignments, and so its keys are distinct. -/
theorem distinct_of_tableOf {ps : List (Key × Value)} (hps : ∀ p ∈ ps, p.2.Distinct) {v : Value}
    (h : tableOf ps = some v) : v.Distinct := by
  obtain ⟨b, hb, heq⟩ := Option.bind_eq_some_iff.mp h
  cases heq
  refine foldlM_invariant (P := Branch.Distinct) (fun b p b' hb hp h => ?_) hps Branch.distinct_nil hb
  exact hb.assign hp h

/-- What stands in brackets is one level less deep. -/
theorem yields_value_of_deeper {depth : Nat}
    (hdeeper : ∀ d, depth = d + 1 → Reader.Yields Value.Distinct (Toml.value d)) :
    Reader.Yields Value.Distinct (Toml.value depth) := by
  intro cs v rest h
  unfold Toml.value at h
  split at h
  · cases h
  · split at h
    · obtain ⟨⟨s, left⟩, -, heq⟩ := Option.map_eq_some_iff.mp h
      cases heq
      exact .text s
    · split at h
      · obtain ⟨⟨vs, left⟩, hvs, heq⟩ := Option.map_eq_some_iff.mp h
        cases heq
        exact .array (yields_elements (hdeeper _ rfl) _ _ vs _ hvs)
      · split at h
        · cases h
          exact .table .nil nofun
        · obtain ⟨⟨ps, left⟩, hps, h⟩ := Option.bind_eq_some_iff.mp h
          obtain ⟨t, ht, heq⟩ := Option.bind_eq_some_iff.mp h
          cases heq
          exact distinct_of_tableOf (yields_pairs (hdeeper _ rfl) _ _ ps _ hps) ht
      · exact yields_plain _ v rest h

/-- Every value that is read has distinct keys, however deep. -/
theorem yields_value (depth : Nat) : Reader.Yields Value.Distinct (Toml.value depth) := by
  induction depth with
  | zero => exact yields_value_of_deeper nofun
  | succ depth ih =>
    refine yields_value_of_deeper fun d hd => ?_
    cases hd
    exact ih

/-- A value that the statement gives is of this kind. -/
def Statement.Distinct : Statement → Prop
  | .assign _ v => v.Distinct
  | .openTable _ | .openNext _ => True

theorem yields_statement : Reader.Yields Statement.Distinct statement := by
  intro cs s rest h
  unfold statement at h
  split at h
  · obtain ⟨⟨k, left⟩, -, heq⟩ := Option.map_eq_some_iff.mp h
    cases heq
    trivial
  · obtain ⟨⟨k, left⟩, -, heq⟩ := Option.map_eq_some_iff.mp h
    cases heq
    trivial
  · obtain ⟨⟨p, left⟩, hp, h⟩ := Option.bind_eq_some_iff.mp h
    obtain ⟨left', -, heq⟩ := Option.bind_eq_some_iff.mp h
    cases heq
    exact yields_pair (yields_value deepest) _ p left hp

theorem distinct_of_statements {count : Nat} {cs : List Char} {ss : List Statement}
    (h : statements count cs = some ss) : ∀ s ∈ ss, s.Distinct := by
  induction count generalizing cs ss with
  | zero =>
    rw [statements, Option.ite_none_right_eq_some] at h
    cases h.2
    exact nofun
  | succ count ih =>
    rw [statements] at h
    split at h
    · cases h
      exact nofun
    · obtain ⟨⟨s, left⟩, hs, h⟩ := Option.bind_eq_some_iff.mp h
      obtain ⟨more, hmore, heq⟩ := Option.bind_eq_some_iff.mp h
      cases heq
      exact List.forall_mem_cons.mpr ⟨yields_statement _ s left hs, ih hmore⟩

/-- A document stays distinct with each of its statements. -/
theorem Draft.distinct_add {d d' : Draft} {s : Statement} (hd : d.root.Distinct) (hs : s.Distinct)
    (h : d.add s = some d') : d'.root.Distinct := by
  cases s with
  | assign k v =>
    obtain ⟨root, hroot, heq⟩ := Option.bind_eq_some_iff.mp h
    cases heq
    exact hd.assignBelow hs hroot
  | openTable k =>
    obtain ⟨root, hroot, heq⟩ := Option.bind_eq_some_iff.mp h
    cases heq
    exact hd.openTable hroot
  | openNext k =>
    obtain ⟨root, hroot, heq⟩ := Option.bind_eq_some_iff.mp h
    cases heq
    exact hd.openNext hroot

/-- A document gives each key once, at every depth. -/
theorem distinct_of_read {text : String} {t : Table} (h : read text = some t) :
    (Value.table t).Distinct := by
  simp only [read, bind, Option.bind_eq_some_iff, pure, Option.some.injEq] at h
  obtain ⟨ss, hss, draft, hdraft, rfl⟩ := h
  exact foldlM_invariant (P := fun d => d.root.Distinct) (fun d s d' => Draft.distinct_add)
    (distinct_of_statements hss) Branch.distinct_nil hdraft

end ScriptedPeer.Toml
