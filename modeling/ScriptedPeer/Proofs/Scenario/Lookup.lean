import Mathlib.Data.List.Nodup
import ScriptedPeer.Scenario.Catalog

/-!
# Looking a scenario up

No two plans of the catalog have the same identifier, so a text that spells an identifier finds the
one plan that has it, however it spells it. A text that finds none spells no identifier, or one that
no plan has.
-/

namespace ScriptedPeer.Catalog

theorem nodup_ids : (plans.map Plan.id).Nodup := by decide

theorem eq_of_id_eq {p q : Plan} (hp : p ∈ plans) (hq : q ∈ plans) (h : p.id = q.id) : p = q :=
  List.inj_on_of_nodup_map nodup_ids hp hq h

theorem find?_eq_some_iff {id : ScenarioId} {p : Plan} :
    find? id = some p ↔ p ∈ plans ∧ p.id = id := by
  constructor
  · intro h
    exact ⟨List.mem_of_find?_eq_some h, eq_of_beq (List.find?_some h :)⟩
  · rintro ⟨hp, rfl⟩
    cases hq : find? p.id with
    | none =>
      have hnone := List.find?_eq_none.mp hq p hp
      simp at hnone
    | some q =>
      have hid : q.id = p.id := eq_of_beq (List.find?_some hq :)
      rw [eq_of_id_eq (List.mem_of_find?_eq_some hq) hp hid]

theorem find?_eq_none_iff {id : ScenarioId} : find? id = none ↔ ∀ p ∈ plans, p.id ≠ id := by
  simp [find?]

variable {s : String} {id : ScenarioId}

theorem lookup_of_malformed (h : ScenarioId.ofText? s = none) :
    lookup s = .error (.malformedScenario s) := by
  simp only [lookup, ScenarioId.parse, h, bind, Except.bind]

theorem lookup_of_spelled (h : ScenarioId.ofText? s = some id) :
    lookup s = match find? id with
      | some p => .ok p
      | none => .error (.unknownScenario s) := by
  cases hf : find? id <;> simp only [lookup, ScenarioId.parse, h, bind, Except.bind, hf]

theorem lookup_eq_ok_iff {p : Plan} :
    lookup s = .ok p ↔ p ∈ plans ∧ ScenarioId.ofText? s = some p.id := by
  cases hs : ScenarioId.ofText? s with
  | none =>
    rw [lookup_of_malformed hs]
    simp
  | some id =>
    have hfind : find? id = some p ↔ p ∈ plans ∧ some id = some p.id := by
      rw [find?_eq_some_iff, Option.some_inj, eq_comm (a := id)]
    rw [lookup_of_spelled hs, ← hfind]
    cases find? id <;> simp

theorem lookup_eq_error_iff {fault : SettingsFault} :
    lookup s = .error fault ↔
      ScenarioId.ofText? s = none ∧ fault = .malformedScenario s ∨
      ∃ id, ScenarioId.ofText? s = some id ∧ (∀ p ∈ plans, p.id ≠ id) ∧
        fault = .unknownScenario s := by
  cases hs : ScenarioId.ofText? s with
  | none =>
    rw [lookup_of_malformed hs]
    simp [eq_comm]
  | some id =>
    rw [lookup_of_spelled hs]
    cases hf : find? id with
    | none =>
      have hnone := find?_eq_none_iff.mp hf
      simp only [Except.error.injEq, reduceCtorEq, false_and, Option.some.injEq, exists_eq_left',
        false_or, eq_comm (b := fault)]
      exact ⟨fun h => ⟨hnone, h⟩, And.right⟩
    | some p =>
      obtain ⟨hp, hid⟩ := find?_eq_some_iff.mp hf
      simp only [reduceCtorEq, false_and, Option.some.injEq, exists_eq_left', false_or, false_iff]
      exact fun h => h.1 p hp hid

end ScriptedPeer.Catalog
