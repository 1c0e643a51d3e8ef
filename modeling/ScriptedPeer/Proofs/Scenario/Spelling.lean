import ScriptedPeer.Proofs.Scenario.Lookup
import ScriptedPeer.Proofs.Text.Numeral

/-!
# How an identifier may be written

An identifier is two numerals with a point between them, and may have blanks around it. Each text
that is written so is read as the numbers that it spells, and no other text is read. So there are as
many texts of an identifier as one likes, one of which is printed, and a lookup does not tell them
apart.
-/

namespace ScriptedPeer

open Text

namespace ScenarioId

/-- The text is a numeral, a point and a numeral, with blanks around them or none, and the numerals
spell these numbers. -/
def Written (s : String) (major minor : Nat) : Prop :=
  ∃ front a b back, s.toList = front ++ (a ++ '.' :: b) ++ back ∧
    (∀ c ∈ front, isBlank c = true) ∧ (∀ c ∈ back, isBlank c = true) ∧
    Numeral a major ∧ Numeral b minor

variable {s : String} {i : ScenarioId} {cs a b : List Char} {major minor : Nat}

theorem eq_append_point (h : '.' ∈ cs) :
    cs = cs.takeWhile (· != '.') ++ '.' :: (cs.dropWhile (· != '.')).drop 1 := by
  induction cs with
  | nil => cases h
  | cons c cs ih =>
    by_cases hc : c = '.'
    · simp [hc]
    · have htail : '.' ∈ cs := (List.mem_cons.mp h).resolve_left (Ne.symm hc)
      simpa [hc] using ih htail

theorem part?_eq_some_iff {v : UInt8} : part? cs = some v ↔ Numeral cs v.toNat := by
  rw [part?, Option.map_eq_some_iff]
  constructor
  · rintro ⟨n, hn, rfl⟩
    obtain ⟨h, hle⟩ := unsigned?_eq_some_iff.mp hn
    rwa [UInt8.toNat_ofNat_of_lt' (Nat.lt_succ_of_le hle)]
  · intro h
    exact ⟨v.toNat, unsigned?_eq_some_iff.mpr ⟨h, Nat.le_of_lt_succ v.toNat_lt⟩, v.ofNat_toNat⟩

theorem ofText?_eq_some : ofText? s = some i ↔ '.' ∈ trim s.toList ∧
    part? ((trim s.toList).takeWhile (· != '.')) = some i.major ∧
    part? (((trim s.toList).dropWhile (· != '.')).drop 1) = some i.minor := by
  simp only [ofText?, guard, List.contains_iff_mem, bind, Option.bind_eq_some_iff, pure,
    Option.some.injEq]
  constructor
  · rintro ⟨_, h, major, hmajor, minor, hminor, rfl⟩
    refine ⟨?_, hmajor, hminor⟩
    by_contra hn
    simp [hn] at h
  · rintro ⟨h, hmajor, hminor⟩
    exact ⟨(), if_pos h, _, hmajor, _, hminor, rfl⟩

/-- The point that divides a text is the only one, for there is none in a numeral. -/
theorem ofText?_eq_some_iff : ofText? s = some i ↔ ∃ a b, trim s.toList = a ++ '.' :: b ∧
    Numeral a i.major.toNat ∧ Numeral b i.minor.toNat := by
  rw [ofText?_eq_some, part?_eq_some_iff, part?_eq_some_iff]
  constructor
  · rintro ⟨h, hmajor, hminor⟩
    exact ⟨_, _, eq_append_point h, hmajor, hminor⟩
  · rintro ⟨a, b, htrim, ha, hb⟩
    have hpoint : ∀ c ∈ a, (c != '.') = true := fun c hc => bne_iff_ne.mpr (ha.ne_point hc)
    rw [htrim, List.takeWhile_append_of_pos hpoint, List.dropWhile_append_of_pos hpoint]
    simpa using ⟨ha, hb⟩

theorem isBlank_of_mem_numerals (ha : Numeral a major) (hb : Numeral b minor) {c : Char}
    (hc : c ∈ a ++ '.' :: b) : isBlank c = false := by
  rcases List.mem_append.mp hc with hc | hc
  · exact ha.isBlank_of_mem hc
  · rcases List.mem_cons.mp hc with rfl | hc
    · rfl
    · exact hb.isBlank_of_mem hc

/-- Without the blanks around it, a text that is written so is the numerals and the point. -/
theorem written_iff : Written s major minor ↔ ∃ a b, trim s.toList = a ++ '.' :: b ∧
    Numeral a major ∧ Numeral b minor := by
  constructor
  · rintro ⟨front, a, b, back, hs, hfront, hback, ha, hb⟩
    refine ⟨a, b, ?_, ha, hb⟩
    rw [hs]
    apply trim_of_blanks hfront hback (by simp)
    · exact fun c hc => isBlank_of_mem_numerals ha hb (List.mem_of_mem_head? hc)
    · exact fun c hc => isBlank_of_mem_numerals ha hb (List.mem_of_mem_getLast? hc)
  · rintro ⟨a, b, htrim, ha, hb⟩
    obtain ⟨front, back, hs, hfront, hback⟩ := exists_blanks s.toList
    rw [htrim] at hs
    exact ⟨front, a, b, back, hs, hfront, hback, ha, hb⟩

theorem parse_eq_ok_iff_ofText? : parse s = .ok i ↔ ofText? s = some i := by
  cases h : ofText? s <;> simp [parse, h]

theorem parse_eq_error_iff_ofText? {fault : SettingsFault} :
    parse s = .error fault ↔ ofText? s = none ∧ fault = .malformedScenario s := by
  cases h : ofText? s <;> simp [parse, h, eq_comm]

theorem parse_eq_ok_iff : parse s = .ok i ↔ Written s i.major.toNat i.minor.toNat := by
  rw [parse_eq_ok_iff_ofText?, ofText?_eq_some_iff, written_iff]

theorem parse_of_written (h : Written s major minor) (hmajor : major ≤ 255) (hminor : minor ≤ 255) :
    parse s = .ok ⟨.ofNat major, .ofNat minor⟩ := by
  rw [parse_eq_ok_iff]
  rwa [UInt8.toNat_ofNat_of_lt' (Nat.lt_succ_of_le hmajor),
    UInt8.toNat_ofNat_of_lt' (Nat.lt_succ_of_le hminor)]

/-- A text that is not read is none of an identifier, or it spells a number that is too large. -/
theorem parse_eq_error_iff {fault : SettingsFault} : parse s = .error fault ↔
    fault = .malformedScenario s ∧
      ∀ major minor, Written s major minor → 255 < major ∨ 255 < minor := by
  rw [parse_eq_error_iff_ofText?]
  constructor
  · rintro ⟨hnone, rfl⟩
    refine ⟨rfl, fun major minor hw => ?_⟩
    by_contra hsmall
    obtain ⟨hmajor, hminor⟩ := not_or.mp hsmall
    have hok := parse_of_written hw (Nat.le_of_not_lt hmajor) (Nat.le_of_not_lt hminor)
    rw [parse_eq_ok_iff_ofText?, hnone] at hok
    cases hok
  · rintro ⟨rfl, hbeyond⟩
    refine ⟨Option.eq_none_iff_forall_ne_some.mpr fun i hi => ?_, rfl⟩
    have hlarge := hbeyond _ _ (parse_eq_ok_iff.mp (parse_eq_ok_iff_ofText?.mpr hi))
    have hmajor := i.major.toNat_lt
    have hminor := i.minor.toNat_lt
    omega

/-- An identifier is printed as one of the texts that it may be written as. -/
theorem written_text (i : ScenarioId) : Written i.text i.major.toNat i.minor.toNat := by
  refine ⟨[], Nat.toDigits 10 i.major.toNat, Nat.toDigits 10 i.minor.toNat, [], ?_,
    nofun, nofun, .plain (digits_toDigits _), .plain (digits_toDigits _)⟩
  simp [text]

theorem parse_text (i : ScenarioId) : parse i.text = .ok i := parse_eq_ok_iff.mpr (written_text i)

theorem text_injective : Function.Injective text := by
  intro i j h
  have hparse := parse_text i
  rw [h, parse_text] at hparse
  exact (Except.ok.inj hparse).symm

end ScenarioId

namespace Catalog

/-- A text is read as an identifier exactly if it is written as one whose numbers fit a byte, and is
reported as it was given otherwise. Each identifier is printed as such a text, and no two as the same.
A lookup finds the one plan with the identifier, however it is written; the other identifiers, and
nothing else, are unknown to it. -/
theorem lookup_written :
    (∀ s, (∀ i, ScenarioId.parse s = .ok i ↔
        ScenarioId.Written s i.major.toNat i.minor.toNat) ∧
      ∀ fault, ScenarioId.parse s = .error fault ↔ fault = .malformedScenario s ∧
        ∀ major minor, ScenarioId.Written s major minor → 255 < major ∨ 255 < minor) ∧
    (∀ i : ScenarioId, ScenarioId.parse i.text = .ok i) ∧
    Function.Injective ScenarioId.text ∧
    (∀ s, (∀ p, lookup s = .ok p ↔ p ∈ plans ∧ ScenarioId.parse s = .ok p.id) ∧
      ∀ fault, lookup s = .error fault ↔ ScenarioId.parse s = .error fault ∨
        fault = .unknownScenario s ∧
          ∃ i, ScenarioId.parse s = .ok i ∧ ∀ p ∈ plans, p.id ≠ i) ∧
    (∀ p ∈ plans, ∀ q ∈ plans, p.id = q.id → p = q) ∧
    ∀ s s' i, ScenarioId.parse s = .ok i → ScenarioId.parse s' = .ok i →
      ∀ p, lookup s = .ok p ↔ lookup s' = .ok p := by
  have hok (s : String) (p : Plan) :
      lookup s = .ok p ↔ p ∈ plans ∧ ScenarioId.parse s = .ok p.id := by
    rw [lookup_eq_ok_iff, ScenarioId.parse_eq_ok_iff_ofText?]
  refine ⟨fun s => ⟨fun i => ScenarioId.parse_eq_ok_iff, fun fault => ScenarioId.parse_eq_error_iff⟩,
    ScenarioId.parse_text, ScenarioId.text_injective, fun s => ⟨hok s, fun fault => ?_⟩,
    fun p hp q hq => eq_of_id_eq hp hq, fun s s' i h h' p => by rw [hok, hok, h, h']⟩
  rw [lookup_eq_error_iff, ScenarioId.parse_eq_error_iff_ofText?, and_comm (b := ∃ i, _)]
  simp only [ScenarioId.parse_eq_ok_iff_ofText?, ← and_assoc, exists_and_right]

/-- The burst of Tells is found with a plus and with zeros and blanks around, and the text does not
matter beyond its numbers. A text with blanks at the point is none of an identifier. -/
theorem lookup_written_padded :
    (∀ p, lookup " +06.002\t" = .ok p ↔ lookup "6.2" = .ok p) ∧
    ScenarioId.Written " +06.002\t" 6 2 ∧
    ∀ major minor, ScenarioId.Written "6 .2" major minor → 255 < major ∨ 255 < minor := by
  obtain ⟨hparse, -, -, -, -, hsame⟩ := lookup_written
  have hpadded : ScenarioId.parse " +06.002\t" = .ok ⟨6, 2⟩ := by rfl
  have hbroken : ScenarioId.parse "6 .2" = .error (.malformedScenario "6 .2") := by rfl
  exact ⟨hsame _ "6.2" ⟨6, 2⟩ hpadded rfl, ((hparse _).1 ⟨6, 2⟩).mp hpadded,
    (((hparse _).2 _).mp hbroken).2⟩

end Catalog
end ScriptedPeer
