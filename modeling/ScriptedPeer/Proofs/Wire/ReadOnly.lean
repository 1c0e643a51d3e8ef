import ScriptedPeer.Proofs.Wire.ReadBack

/-!
# Reading only what was written

A layout reads nothing but its own values, and each of them only off the bytes that it writes for it.
This is kept by every way of putting layouts together, so that it holds of all types that stand in a
body. What is read says also how long it can be: no text and no list is read whose length does not
fit eight bytes.
-/

namespace ScriptedPeer.Wire

namespace Layout

variable {α β : Type} {P : α → Prop} {Q : β → Prop}

/-- Only values in `P` are read, and each of them off its own bytes. -/
def ReadsOnly (l : Layout α) (P : α → Prop) : Prop :=
  ∀ bs a rest, l.read bs = .ok (a, rest) → P a ∧ bs = l.write a ++ rest

theorem ReadsOnly.mono {l : Layout α} (hl : l.ReadsOnly P) {P' : α → Prop}
    (hp : ∀ a, P a → P' a) : l.ReadsOnly P' := by
  intro bs a rest h
  obtain ⟨ha, hb⟩ := hl bs a rest h
  exact ⟨hp a ha, hb⟩

theorem number_readsOnly (width : Nat) : (number width).ReadsOnly (· < Nat.pow 256 width) := by
  intro bs n rest h
  simp only [number] at h
  split at h
  · next front rest hs =>
    cases h
    obtain ⟨rfl, rfl⟩ := split?_eq_some hs
    have hw : (number front.length).write (ofLittleEndian front) = front :=
      littleEndian_ofLittleEndian front
    exact ⟨ofLittleEndian_lt front, by rw [hw]⟩
  · cases h

theorem readAs_eq_ok {l : Layout α} {f : α → β} {bs rest : Bytes} {b : β}
    (h : l.readAs f bs = .ok (b, rest)) : ∃ a, l.read bs = .ok (a, rest) ∧ b = f a := by
  simp only [readAs] at h
  split at h
  · next a rest hr =>
    cases h
    exact ⟨a, hr, rfl⟩
  · cases h

theorem ReadsOnly.readAs {l : Layout α} (hl : l.ReadsOnly P) {f : α → β} {bs rest : Bytes} {b : β}
    (h : l.readAs f bs = .ok (b, rest)) : ∃ a, b = f a ∧ P a ∧ bs = l.write a ++ rest := by
  obtain ⟨a, hr, hb⟩ := readAs_eq_ok h
  exact ⟨a, hb, hl bs a rest hr⟩

/-- What is known of a value is known of what it is read as. -/
theorem ReadsOnly.via {l : Layout α} (hl : l.ReadsOnly P) {f : α → β} {g : β → α}
    (hg : ∀ a, P a → g (f a) = a) : (l.via f g).ReadsOnly fun b => P (g b) := by
  intro bs b rest h
  obtain ⟨a, rfl, ha, hb⟩ := hl.readAs h
  change P (g (f a)) ∧ bs = l.write (g (f a)) ++ rest
  rw [hg a ha]
  exact ⟨ha, hb⟩

/-- Two values one behind the other are read only off their own bytes. -/
theorem ReadsOnly.pair {l : Layout α} {m : Layout β} (hl : l.ReadsOnly P) (hm : m.ReadsOnly Q) :
    (l.pair m).ReadsOnly fun p => P p.1 ∧ Q p.2 := by
  intro bs p rest h
  simp only [Layout.pair] at h
  split at h
  · cases h
  · next a more ha =>
    obtain ⟨b, rfl, hq, rfl⟩ := hm.readAs h
    obtain ⟨hp, rfl⟩ := hl bs a _ ha
    exact ⟨⟨hp, hq⟩, (List.append_assoc ..).symm⟩

theorem word16_readsOnly : word16.ReadsOnly fun _ => True :=
  ((number_readsOnly 2).via fun _ h => UInt16.toNat_ofNat_of_lt' h).mono fun _ _ => trivial

theorem word32_readsOnly : word32.ReadsOnly fun _ => True :=
  ((number_readsOnly 4).via fun _ h => UInt32.toNat_ofNat_of_lt' h).mono fun _ _ => trivial

theorem word64_readsOnly : word64.ReadsOnly fun _ => True :=
  ((number_readsOnly 8).via fun _ h => UInt64.toNat_ofNat_of_lt' h).mono fun _ _ => trivial

theorem utf8_of_fromUTF8? {bs : Bytes} {s : String}
    (h : String.fromUTF8? bs.toByteArray = some s) : utf8 s = bs := by
  simp only [String.fromUTF8?] at h
  split at h
  · cases h
    change bs.toByteArray.data.toList = bs
    rw [List.data_toByteArray]
  · cases h

/-- A text is read only off its own bytes, so that its length fits eight of them. -/
theorem text_readsOnly : text.ReadsOnly TextFits := by
  intro bs s rest h
  simp only [text] at h
  split at h
  · cases h
  · next length more hn =>
    obtain ⟨hlt, rfl⟩ := number_readsOnly 8 bs length more hn
    split at h
    · cases h
    · next front more hs =>
      obtain ⟨rfl, rfl⟩ := split?_eq_some hs
      split at h
      · next hu =>
        cases h
        obtain rfl := utf8_of_fromUTF8? hu
        exact ⟨hlt, (List.append_assoc ..).symm⟩
      · cases h

/-- What `readMany` adds to the values before is spelled in order by what it takes off. -/
theorem ReadsOnly.readMany {l : Layout α} (hl : l.ReadsOnly P) (count : Nat) (before : List α)
    (bs : Bytes) (as : List α) (rest : Bytes) (h : readMany l count before bs = .ok (as, rest)) :
    ∃ more, as = before.reverse ++ more ∧ more.length = count ∧ (∀ a ∈ more, P a) ∧
      bs = more.flatMap l.write ++ rest := by
  induction count generalizing before bs with
  | zero =>
    cases h
    exact ⟨[], by simp⟩
  | succ n ih =>
    simp only [Layout.readMany] at h
    split at h
    · cases h
    · next a left ha =>
      obtain ⟨hp, rfl⟩ := hl bs a left ha
      obtain ⟨more, has, hn, hm, rfl⟩ := ih (a :: before) left h
      refine ⟨a :: more, by simp [has], by simp [hn], ?_, by simp⟩
      intro x hx
      rcases List.mem_cons.mp hx with rfl | hx
      · exact hp
      · exact hm x hx

theorem ReadsOnly.list {l : Layout α} (hl : l.ReadsOnly P) :
    l.list.ReadsOnly fun as => as.length < Nat.pow 256 8 ∧ ∀ a ∈ as, P a := by
  intro bs as rest h
  simp only [Layout.list] at h
  split at h
  · cases h
  · next count left hn =>
    obtain ⟨hlt, rfl⟩ := number_readsOnly 8 bs count left hn
    obtain ⟨more, has, rfl, hm, rfl⟩ := hl.readMany count [] left as rest h
    obtain rfl : as = more := has
    exact ⟨⟨hlt, hm⟩, (List.append_assoc ..).symm⟩

/-- A variant is read off its number and then by the reader that its number leads to. -/
theorem readTagged_eq_ok {count : Nat}
    {variant : Nat → Option (Bytes → Except BodyFault (α × Bytes))} {bs rest : Bytes} {a : α}
    (h : readTagged count variant bs = .ok (a, rest)) :
    ∃ index read body, variant index = some read ∧ read body = .ok (a, rest) ∧
      bs = tag index ++ body := by
  simp only [readTagged] at h
  split at h
  · cases h
  · next index body hn =>
    obtain ⟨-, rfl⟩ := number_readsOnly 4 bs index body hn
    split at h
    · next read hv => exact ⟨index, read, body, hv, h, rfl⟩
    · cases h

theorem greeting_readsOnly : greeting.ReadsOnly fun g => ∀ s ∈ g.texts, TextFits s :=
  ((text_readsOnly.pair (text_readsOnly.pair text_readsOnly)).via fun _ _ => rfl).mono
    fun g hg => by simpa [Greeting.texts] using hg

theorem item_readsOnly : item.ReadsOnly fun i => ∀ s ∈ i.texts, TextFits s := by
  have hs : sequence.ReadsOnly fun _ => True := word64_readsOnly.via fun _ _ => rfl
  have ht : timestamp.ReadsOnly fun _ => True := word64_readsOnly.via fun _ _ => rfl
  exact ((text_readsOnly.pair (text_readsOnly.pair (hs.pair ht))).via fun _ _ => rfl).mono
    fun i hi => by simpa [Item.texts] using hi

theorem endpoint_readsOnly : endpoint.ReadsOnly fun e => TextFits e.host :=
  ((text_readsOnly.pair word16_readsOnly).via fun _ _ => rfl).mono fun _ he => he.1

theorem settings_readsOnly :
    settings.ReadsOnly fun s => TextFits s.identity ∧ TextFits s.nickname := by
  have hw := word32_readsOnly.pair (word64_readsOnly.pair (word32_readsOnly.pair
    (word32_readsOnly.pair (word32_readsOnly.pair (word32_readsOnly.pair
      (word64_readsOnly.pair word64_readsOnly))))))
  exact ((text_readsOnly.pair (text_readsOnly.pair hw)).via fun _ _ => rfl).mono
    fun _ hs => ⟨hs.1, hs.2.1⟩

theorem method_readsOnly : method.ReadsOnly fun _ => True := by
  intro bs m rest h
  obtain ⟨index, read, body, hv, hr, rfl⟩ := readTagged_eq_ok h
  split at hv <;> cases hv <;> cases hr <;> exact ⟨trivial, rfl⟩

theorem reply_readsOnly : reply.ReadsOnly fun r => ∀ s ∈ r.texts, TextFits s := by
  intro bs r rest h
  obtain ⟨index, read, body, hv, hr, rfl⟩ := readTagged_eq_ok h
  split at hv <;> cases hv
  case h_2 =>
    obtain ⟨g, rfl, hg, rfl⟩ := greeting_readsOnly.readAs hr
    exact ⟨hg, (List.append_assoc ..).symm⟩
  all_goals
    obtain ⟨identity, rfl, hi, rfl⟩ := text_readsOnly.readAs hr
    exact ⟨List.forall_mem_singleton.mpr hi, (List.append_assoc ..).symm⟩

/-- No frame of a caller can be spelled in two ways. -/
theorem clientFrame_readsOnly : clientFrame.ReadsOnly fun f => ∀ s ∈ f.texts, TextFits s := by
  intro bs f rest h
  obtain ⟨index, read, body, hv, hr, rfl⟩ := readTagged_eq_ok h
  split at hv <;> cases hv
  case h_1 =>
    obtain ⟨identity, rfl, hi, rfl⟩ := text_readsOnly.readAs hr
    exact ⟨List.forall_mem_singleton.mpr hi, (List.append_assoc ..).symm⟩
  case h_2 =>
    obtain ⟨g, rfl, hg, rfl⟩ := greeting_readsOnly.readAs hr
    exact ⟨hg, (List.append_assoc ..).symm⟩
  case h_5 =>
    cases hr
    exact ⟨List.forall_mem_nil _, rfl⟩
  all_goals
    obtain ⟨i, rfl, hi, rfl⟩ := item_readsOnly.readAs hr
    exact ⟨hi, (List.append_assoc ..).symm⟩

theorem serverFrame_readsOnly : serverFrame.ReadsOnly fun f => ∀ s ∈ f.texts, TextFits s := by
  intro bs f rest h
  obtain ⟨index, read, body, hv, hr, rfl⟩ := readTagged_eq_ok h
  split at hv <;> cases hv
  · obtain ⟨r, rfl, hp, rfl⟩ := reply_readsOnly.readAs hr
    exact ⟨hp, (List.append_assoc ..).symm⟩
  · obtain ⟨m, rfl, -, rfl⟩ := method_readsOnly.readAs hr
    exact ⟨List.forall_mem_nil _, (List.append_assoc ..).symm⟩

end Layout
end ScriptedPeer.Wire
