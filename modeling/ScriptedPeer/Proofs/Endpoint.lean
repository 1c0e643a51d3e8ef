import Mathlib.Data.List.Basic
import ScriptedPeer.Endpoint
import ScriptedPeer.Proofs.Text.Numeral

/-!
# Endpoints read back from their text

A host may be any text, also one with colons and brackets in it, or one that ends like a port. The
text of an endpoint still tells host and port apart: the port is what follows the last colon, and the
host has been put into brackets just if there is another colon before it. So no two endpoints have
the same text.
-/

namespace ScriptedPeer.Endpoint

open Text

/-- The characters before the last colon, and those after it. -/
def splitLast? (cs : List Char) : Option (List Char × List Char) :=
  match cs.reverse.dropWhile (· != ':') with
  | [] => none
  | _ :: front => some (front.reverse, (cs.reverse.takeWhile (· != ':')).reverse)

/-- What stands between a bracket at either end. -/
def unbracket? : List Char → Option (List Char)
  | '[' :: rest => if rest.getLast? = some ']' then some rest.dropLast else none
  | _ => none

/-- The host that is meant by what stands before the last colon. -/
def hostOf? (front : List Char) : Option (List Char) :=
  if ':' ∈ front then unbracket? front else some front

def ofText? (s : String) : Option Endpoint := do
  let (front, back) ← splitLast? s.toList
  let host ← hostOf? front
  let port ← (digits? back).filter (· ≤ 65535)
  return ⟨String.ofList host, .ofNat port⟩

/-- The last colon of the text has the digits of the port behind it. Before it stands the host, in
brackets exactly if there is a colon in what stands there. -/
def Spells (s : String) (e : Endpoint) : Prop :=
  ∃ front back, s.toList = front ++ ':' :: back ∧ ':' ∉ back ∧
    front = (if ':' ∈ front then '[' :: e.host.toList ++ [']'] else e.host.toList) ∧
    Digits back e.port.toNat

variable {cs front back host : List Char} {s : String} {e : Endpoint}

theorem splitLast?_append (h : ':' ∉ back) :
    splitLast? (front ++ ':' :: back) = some (front, back) := by
  have hback : ∀ c ∈ back.reverse, (c != ':') = true := by
    intro c hc
    rw [bne_iff_ne]
    rintro rfl
    exact h (List.mem_reverse.mp hc)
  have hreverse : (front ++ ':' :: back).reverse = back.reverse ++ ':' :: front.reverse := by simp
  simp only [splitLast?, hreverse, List.dropWhile_append_of_pos hback,
    List.takeWhile_append_of_pos hback]
  simp

theorem splitLast?_eq_some_iff :
    splitLast? cs = some (front, back) ↔ cs = front ++ ':' :: back ∧ ':' ∉ back := by
  constructor
  · intro h
    have hsplit := List.takeWhile_append_dropWhile (p := (· != ':')) (l := cs.reverse)
    have hstart : ∀ c ∈ cs.reverse.takeWhile (· != ':'), (c != ':') = true :=
      List.all_eq_true.mp List.all_takeWhile
    unfold splitLast? at h
    cases hdrop : cs.reverse.dropWhile (· != ':') with
    | nil =>
      rw [hdrop] at h
      cases h
    | cons c rest =>
      rw [hdrop] at h hsplit
      cases h
      have hc : c = ':' := by
        have hhead := List.head?_dropWhile_not (· != ':') cs.reverse
        rw [hdrop] at hhead
        simpa using hhead
      rw [hc] at hsplit
      have hreverse := congrArg List.reverse hsplit
      rw [List.reverse_reverse, List.reverse_append, List.reverse_cons, List.append_assoc] at hreverse
      constructor
      · exact hreverse.symm
      · intro hmem
        simpa using hstart ':' (List.mem_reverse.mp hmem)
  · rintro ⟨rfl, h⟩
    exact splitLast?_append h

theorem unbracket?_eq_some_iff : unbracket? cs = some host ↔ cs = '[' :: host ++ [']'] := by
  constructor
  · intro h
    unfold unbracket? at h
    split at h
    · next rest =>
      rw [Option.ite_none_right_eq_some] at h
      obtain ⟨hlast, hhost⟩ := h
      cases hhost
      rw [List.cons_append, List.dropLast_append_getLast? ']' hlast]
    · cases h
  · rintro rfl
    simp [unbracket?]

theorem hostOf?_eq_some_iff :
    hostOf? front = some host ↔ front = if ':' ∈ front then '[' :: host ++ [']'] else host := by
  unfold hostOf?
  by_cases h : ':' ∈ front
  · rw [if_pos h, if_pos h, unbracket?_eq_some_iff]
  · rw [if_neg h, if_neg h, Option.some_inj]

/-- A text is read as the endpoint that it spells, and no other text is read. -/
theorem ofText?_eq_some_iff : ofText? s = some e ↔ Spells s e := by
  simp only [ofText?, bind, Option.bind_eq_some_iff, pure, Option.some.injEq,
    Option.filter_eq_some_iff, decide_eq_true_eq]
  constructor
  · rintro ⟨⟨front, back⟩, hsplit, host, hhost, port, ⟨hdigits, hle⟩, rfl⟩
    obtain ⟨hs, hback⟩ := splitLast?_eq_some_iff.mp hsplit
    refine ⟨front, back, hs, hback, ?_, ?_⟩
    · rw [String.toList_ofList]
      exact hostOf?_eq_some_iff.mp hhost
    · rw [UInt16.toNat_ofNat_of_lt' (Nat.lt_succ_of_le hle)]
      exact digits?_eq_some_iff.mp hdigits
  · rintro ⟨front, back, hs, hback, hfront, hdigits⟩
    refine ⟨(front, back), splitLast?_eq_some_iff.mpr ⟨hs, hback⟩, e.host.toList,
      hostOf?_eq_some_iff.mpr hfront, e.port.toNat, ⟨digits?_eq_some_iff.mpr hdigits, ?_⟩, ?_⟩
    · exact Nat.le_of_lt_succ e.port.toNat_lt
    · rw [String.ofList_toList, e.port.ofNat_toNat]

theorem toList_text (e : Endpoint) :
    e.text.toList = (if ':' ∈ e.host.toList then '[' :: e.host.toList ++ [']'] else e.host.toList) ++
      ':' :: Nat.toDigits 10 e.port.toNat := by
  simp only [text, String.contains_char_eq, decide_eq_true_eq]
  split <;> simp

theorem spells_text (e : Endpoint) : Spells e.text e := by
  have hdigits := digits_toDigits e.port.toNat
  refine ⟨_, _, toList_text e, fun hmem => ?_, ?_, hdigits⟩
  · exact absurd (hdigits.isDigit_of_mem ':' hmem) (by decide)
  · -- The brackets bring no colon with them, and take none away.
    by_cases h : ':' ∈ e.host.toList <;> simp [h]

theorem ofText?_text (e : Endpoint) : ofText? e.text = some e :=
  ofText?_eq_some_iff.mpr (spells_text e)

/-- Two endpoints have the same text only if they are the same. Host and port are read back from the
text by dividing it at its last colon and taking the brackets off what stands before it, just if that
has a colon in it. -/
theorem text_unambiguous :
    (∀ a b : Endpoint, a.text = b.text ↔ a = b) ∧ (∀ e : Endpoint, ofText? e.text = some e) ∧
    ∀ s e, ofText? s = some e ↔ Spells s e := by
  refine ⟨fun a b => ⟨fun h => ?_, congrArg text⟩, ofText?_text, fun s e => ofText?_eq_some_iff⟩
  have hread := ofText?_text a
  rw [h, ofText?_text] at hread
  exact (Option.some.inj hread).symm

end ScriptedPeer.Endpoint
