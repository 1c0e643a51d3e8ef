import Mathlib.Data.List.Basic
import Mathlib.Data.List.Induction
import ScriptedPeer.Text.Blank
import ScriptedPeer.Text.Numeral

/-!
# Numerals and the blanks around a text

What a numeral is, said without reading it: digits in tens, with as many zeros before them as one
likes and perhaps a plus. The readers of numerals read these and nothing else, and a number as it is
printed is one of them. A text is told apart from the blanks around it by its ends.
-/

namespace ScriptedPeer.Text

/-- One or more digits, and the number that they spell in tens. -/
inductive Digits : List Char → Nat → Prop
  | one {d : Nat} (hd : d < 10) : Digits [Nat.digitChar d] d
  | more {cs : List Char} {n d : Nat} (h : Digits cs n) (hd : d < 10) :
    Digits (cs ++ [Nat.digitChar d]) (10 * n + d)

/-- A numeral without a minus. -/
inductive Numeral : List Char → Nat → Prop
  | plain {cs : List Char} {n : Nat} (h : Digits cs n) : Numeral cs n
  | plus {cs : List Char} {n : Nat} (h : Digits cs n) : Numeral ('+' :: cs) n

/-- Digits are the ten characters of ASCII, and no others. -/
theorem isDigit_iff {c : Char} : isDigit c = true ↔ 48 ≤ c.toNat ∧ c.toNat ≤ 57 := by
  rw [isDigit, Bool.and_eq_true, decide_eq_true_eq, decide_eq_true_eq]
  rfl

theorem isDigit_digitChar {d : Nat} (hd : d < 10) : isDigit (Nat.digitChar d) = true := by
  rw [isDigit_iff, Nat.toNat_digitChar_of_lt_ten hd]
  omega

theorem digitValue_digitChar {d : Nat} (hd : d < 10) : digitValue (Nat.digitChar d) = d := by
  rw [digitValue, Nat.toNat_digitChar_of_lt_ten hd]
  exact Nat.add_sub_cancel_left ..

theorem exists_digitChar {c : Char} (h : isDigit c = true) : ∃ d < 10, c = Nat.digitChar d := by
  obtain ⟨hlow, hhigh⟩ := isDigit_iff.mp h
  refine ⟨c.toNat - 48, by omega, Char.toNat_inj.mp ?_⟩
  rw [Nat.toNat_digitChar_of_lt_ten (by omega)]
  omega

namespace Digits

variable {cs : List Char} {n : Nat}

theorem ne_nil (h : Digits cs n) : cs ≠ [] := by
  cases h <;> simp

theorem isDigit_of_mem (h : Digits cs n) : ∀ c ∈ cs, isDigit c = true := by
  induction h with
  | one hd =>
    intro c hc
    rw [List.mem_singleton.mp hc]
    exact isDigit_digitChar hd
  | more h hd ih =>
    intro c hc
    rcases List.mem_append.mp hc with hc | hc
    · exact ih c hc
    · rw [List.mem_singleton.mp hc]
      exact isDigit_digitChar hd

theorem ofDigits_eq (h : Digits cs n) : ofDigits cs = n := by
  induction h with
  | one hd => simp [ofDigits, digitValue_digitChar hd]
  | more h hd ih => rw [ofDigits_append_singleton, ih, digitValue_digitChar hd]

end Digits

/-- Digits spell the number that they are read as. -/
theorem digits_ofDigits {cs : List Char} (h0 : cs ≠ []) (h : ∀ c ∈ cs, isDigit c = true) :
    Digits cs (ofDigits cs) := by
  induction cs using List.reverseRecOn with
  | nil => exact absurd rfl h0
  | append_singleton front c ih =>
    obtain ⟨d, hd, rfl⟩ := exists_digitChar (h c (List.mem_append_right _ (.head _)))
    rw [ofDigits_append_singleton, digitValue_digitChar hd]
    by_cases hfront : front = []
    · subst hfront
      rw [ofDigits_nil, Nat.mul_zero, Nat.zero_add]
      exact .one hd
    · exact .more (ih hfront fun c hc => h c (List.mem_append_left _ hc)) hd

/-- Digits are read as their value, and nothing else is read as digits. -/
theorem digits?_eq_some_iff {cs : List Char} {n : Nat} : digits? cs = some n ↔ Digits cs n := by
  constructor
  · intro h
    rw [digits?, Option.ite_none_right_eq_some] at h
    obtain ⟨⟨h0, hall⟩, hn⟩ := h
    rw [← Option.some.inj hn]
    exact digits_ofDigits h0 (List.all_eq_true.mp hall)
  · intro h
    rw [digits?, if_pos ⟨h.ne_nil, List.all_eq_true.mpr h.isDigit_of_mem⟩, h.ofDigits_eq]

/-- A numeral is read as its number, if that is not beyond the bound. -/
theorem unsigned?_eq_some_iff {bound : Nat} {cs : List Char} {n : Nat} :
    unsigned? bound cs = some n ↔ Numeral cs n ∧ n ≤ bound := by
  unfold unsigned?
  rw [Option.filter_eq_some_iff, decide_eq_true_eq]
  refine and_congr_left' ?_
  split
  · next rest =>
    rw [digits?_eq_some_iff]
    refine ⟨.plus, fun h => ?_⟩
    cases h with
    | plain h => exact absurd (h.isDigit_of_mem '+' (.head _)) (by decide)
    | plus h => exact h
  · next hplus =>
    rw [digits?_eq_some_iff]
    refine ⟨.plain, fun h => ?_⟩
    cases h with
    | plain h => exact h
    | plus h => exact absurd rfl (hplus _)

namespace Numeral

variable {cs : List Char} {n : Nat} {c : Char}

theorem plus_or_isDigit (h : Numeral cs n) (hc : c ∈ cs) : c = '+' ∨ isDigit c = true := by
  cases h with
  | plain h => exact .inr (h.isDigit_of_mem c hc)
  | plus h => exact (List.mem_cons.mp hc).imp_right (h.isDigit_of_mem c)

theorem ne_point (h : Numeral cs n) (hc : c ∈ cs) : c ≠ '.' := by
  rintro rfl
  exact absurd (h.plus_or_isDigit hc) (by decide)

theorem isBlank_of_mem (h : Numeral cs n) (hc : c ∈ cs) : isBlank c = false := by
  rcases h.plus_or_isDigit hc with rfl | hd
  · rfl
  · obtain ⟨hlow, hhigh⟩ := isDigit_iff.mp hd
    simp [isBlank]
    omega

end Numeral

/-- A number is printed as digits that spell it. -/
theorem digits_toDigits (n : Nat) : Digits (Nat.toDigits 10 n) n := by
  induction n using Nat.strongRecOn with
  | ind n ih =>
    rcases Nat.lt_or_ge n 10 with hlt | hge
    · rw [Nat.toDigits_of_lt_base hlt]
      exact .one hlt
    · rw [Nat.toDigits_of_base_le (by decide) hge]
      have hmore := Digits.more (ih (n / 10) (by omega)) (Nat.mod_lt n (by decide : 10 > 0))
      rwa [Nat.div_add_mod] at hmore

theorem trimStart_append {front cs : List Char} (h : ∀ c ∈ front, isBlank c = true) :
    trimStart (front ++ cs) = trimStart cs := List.dropWhile_append_of_pos h

theorem trimStart_of_head? {cs : List Char} (h : ∀ c ∈ cs.head?, isBlank c = false) :
    trimStart cs = cs := by
  cases cs with
  | nil => rfl
  | cons c cs => exact trimStart_eq_self (h c rfl)

/-- The blanks around a text are left out. -/
theorem trim_of_blanks {front back cs : List Char} (hfront : ∀ c ∈ front, isBlank c = true)
    (hback : ∀ c ∈ back, isBlank c = true) (h0 : cs ≠ [])
    (hhead : ∀ c ∈ cs.head?, isBlank c = false) (hlast : ∀ c ∈ cs.getLast?, isBlank c = false) :
    trim (front ++ cs ++ back) = cs := by
  have hstart : trimStart (cs ++ back) = cs ++ back := by
    apply trimStart_of_head?
    rwa [List.head?_append_of_ne_nil cs h0]
  have hend : trimStart cs.reverse = cs.reverse := by
    apply trimStart_of_head?
    rwa [List.head?_reverse]
  have hback' : ∀ c ∈ back.reverse, isBlank c = true :=
    fun c hc => hback c (List.mem_reverse.mp hc)
  rw [trim, List.append_assoc, trimStart_append hfront, hstart, List.reverse_append,
    trimStart_append hback', hend, List.reverse_reverse]

/-- Trimming takes off blanks, and nothing but blanks, at both ends. -/
theorem exists_blanks (cs : List Char) : ∃ front back, cs = front ++ trim cs ++ back ∧
    (∀ c ∈ front, isBlank c = true) ∧ ∀ c ∈ back, isBlank c = true := by
  have hblank (cs : List Char) : ∀ c ∈ cs.takeWhile isBlank, isBlank c = true :=
    List.all_eq_true.mp List.all_takeWhile
  have hsplit (cs : List Char) : cs = cs.takeWhile isBlank ++ trimStart cs :=
    List.takeWhile_append_dropWhile.symm
  refine ⟨cs.takeWhile isBlank, ((trimStart cs).reverse.takeWhile isBlank).reverse, ?_, hblank cs,
    fun c hc => hblank _ c (List.mem_reverse.mp hc)⟩
  rw [trim, List.append_assoc, ← List.reverse_append, ← hsplit, List.reverse_reverse, ← hsplit]

end ScriptedPeer.Text
