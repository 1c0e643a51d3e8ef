import ScriptedPeer.Proofs.Call.Grammar
import ScriptedPeer.Server

/-!
# A part of a call is no call

Of a request that is not written in full, or that does not arrive in full, no request is read,
whether the bytes end within a frame or between two. What has arrived of it says how it ends: as a
connection without a call, as a stream that is not closed, or as the end of the bytes within a frame.
A Narrate with an item that is too large is one such request. Its items before that one are written
and nothing else, and no server takes them for the whole.
-/

namespace ScriptedPeer

open Wire

/-- Bytes behind which a connection ends and that are no call: no request is read, and a server that
they reach leaves its handlers and the stop as they are and writes nothing. -/
structure Undispatched (ps : Pieces) : Prop where
  unread : ∀ r rest, (CallReading.read ps).atEnd ≠ .ok (some (r, rest))
  unserved : ∀ (s : Server) (stop : StopSignal),
    (s.serve stop ps).server.table = s.table ∧ (s.serve stop ps).stop = stop ∧
      (s.serve stop ps).fired = false ∧ (s.serve stop ps).written = []

theorem undispatched_of_unread {ps : Pieces}
    (h : ∀ r rest, (CallReading.read ps).atEnd ≠ .ok (some (r, rest))) : Undispatched ps := by
  refine ⟨h, fun s stop => ?_⟩
  cases hr : (CallReading.read ps).atEnd with
  | error fault => simp only [Server.serve, Server.conclude, hr, Server.failed, and_self]
  | ok reading =>
    cases reading with
    | none => simp only [Server.serve, Server.conclude, hr, and_self]
    | some call => exact absurd hr (h call.1 call.2)

namespace CallReading

/-- How the parts of a call end. -/
theorem atEnd_of_torn {r : Request} {ps : Pieces} (hp : ps.flatten <+: (Call.write r.frames).1)
    (hc : ps.flatten ≠ (Call.write r.frames).1 ∨ (Call.write r.frames).2 ≠ none) :
    (ps.flatten = [] ∧ (read ps).atEnd = .ok none) ∨
    (ps.flatten ≠ [] ∧ (read ps).atEnd = .error .earlyEnd) ∨
    ∃ is items, is ≠ [] ∧ r = .narrate (is ++ items) ∧
      Call.write (is.map .chunk) = (ps.flatten, none) ∧ (read ps).atEnd = .error missingEnd := by
  obtain ⟨is, torn, hi, hr, hfront, ht⟩ := exists_torn hp hc
  have hread := read_of_torn hi hfront ht
  by_cases h0 : torn = []
  · rw [h0, List.append_nil] at hfront
    by_cases hn : is = []
    · subst hn
      exact .inl ⟨hfront, atEnd_of_nothing hfront⟩
    · obtain ⟨items, hitems⟩ := hr hn
      have hw := Call.write_of_fits (is.map .chunk) (List.forall_mem_map.mpr hi)
      rw [← hfront] at hw
      exact .inr (.inr ⟨is, items, hn, hitems, hw, atEnd_of_unclosed hn hw⟩)
  · have hne : ps.flatten ≠ [] := by
      rw [hfront]
      exact fun hnil => h0 (List.append_eq_nil_iff.mp hnil).2
    rw [if_pos h0] at hread
    exact .inr (.inl ⟨hne, by rw [hread]; rfl⟩)

end CallReading

namespace Call

/-- Before the first item that is too large all items fit. -/
theorem exists_first_large {items : List Item}
    (h : ∃ i ∈ items, Frame.maxBody < (Layout.clientFrame.write (.chunk i)).length) :
    ∃ before i after, items = before ++ i :: after ∧
      (∀ j ∈ before, Frame.Fits .clientFrame (.chunk j)) ∧
      ¬Frame.Fits .clientFrame (.chunk i) := by
  induction items with
  | nil =>
    obtain ⟨i, hi, -⟩ := h
    cases hi
  | cons j items ih =>
    by_cases hj : Frame.Fits .clientFrame (.chunk j)
    · obtain ⟨i, hi, hlarge⟩ := h
      have hmem : i ∈ items := by
        rcases List.mem_cons.mp hi with rfl | hmem
        · exact absurd hj (Nat.not_le.mpr hlarge)
        · exact hmem
      obtain ⟨before, i, after, rfl, hb, hi⟩ := ih ⟨i, hmem, hlarge⟩
      exact ⟨j :: before, i, after, rfl, List.forall_mem_cons.mpr ⟨hj, hb⟩, hi⟩
    · exact ⟨[], j, items, rfl, nofun, hj⟩

/-- Of a Narrate with an item that is too large the items before it are written. -/
theorem write_of_large_item {before : List Item} (after : List Item) {i : Item}
    (hb : ∀ j ∈ before, Frame.Fits .clientFrame (.chunk j))
    (hi : ¬Frame.Fits .clientFrame (.chunk i)) :
    write (before.map .chunk) = (framesBytes (before.map .chunk), none) ∧
    write (Request.narrate (before ++ i :: after)).frames =
      (framesBytes (before.map .chunk),
        some (.tooLarge Frame.maxBody (Layout.clientFrame.write (.chunk i)).length)) := by
  have hfits : ∀ f ∈ before.map ClientFrame.chunk, Frame.Fits .clientFrame f :=
    List.forall_mem_map.mpr hb
  refine ⟨write_of_fits _ hfits, ?_⟩
  rw [Request.frames, List.map_append, List.append_assoc, write_append _ _ hfits, List.map_cons,
    List.cons_append, write_of_large hi, List.append_nil]

end Call

open CallReading

/-- A part of a call is no call, and a Narrate with an item that is too large stays a part. -/
theorem undispatched_of_part (r : Request) :
    (∀ ps : Pieces, ps.flatten <+: (Call.write r.frames).1 →
      (ps.flatten ≠ (Call.write r.frames).1 ∨ (Call.write r.frames).2 ≠ none) →
      Undispatched ps ∧
      ((read ps).atEnd = .ok none ↔ ps.flatten = []) ∧
      -- A stream that is cut between two frames, behind an item at least.
      ((read ps).atEnd = .error (.malformed .narrate "stream closed before its end marker") ↔
        ∃ is items, is ≠ [] ∧ r = .narrate (is ++ items) ∧
          Call.write (is.map .chunk) = (ps.flatten, none)) ∧
      ((read ps).atEnd ≠ .ok none →
        (read ps).atEnd ≠ .error (.malformed .narrate "stream closed before its end marker") →
        (read ps).atEnd = .error (.network "early eof"))) ∧
    ∀ items, r = .narrate items →
      (∃ i ∈ items, Frame.maxBody < (Layout.clientFrame.write (.chunk i)).length) →
      ∃ before i after sent, items = before ++ i :: after ∧
        Frame.maxBody < (Layout.clientFrame.write (.chunk i)).length ∧
        -- The frames of the earlier items are sent and the call fails with the size of this one.
        Call.write (before.map .chunk) = (sent, none) ∧
        (∀ patience answer closes, Call.place patience r (.answers answer closes) =
          ⟨sent, .error (.wire (.tooLarge Frame.maxBody
            (Layout.clientFrame.write (.chunk i)).length)), 0⟩) ∧
        ∀ ps : Pieces, ps.flatten <+: sent → Undispatched ps := by
  have hpart : ∀ ps : Pieces, ps.flatten <+: (Call.write r.frames).1 →
      (ps.flatten ≠ (Call.write r.frames).1 ∨ (Call.write r.frames).2 ≠ none) →
      Undispatched ps := by
    intro ps hp hc
    apply undispatched_of_unread
    rcases atEnd_of_torn hp hc with ⟨-, hr⟩ | ⟨-, hr⟩ | ⟨is, items, -, -, -, hr⟩ <;> simp [hr]
  refine ⟨fun ps hp hc => ⟨hpart ps hp hc, ?_, ?_, ?_⟩, ?_⟩
  · refine ⟨fun hr => ?_, atEnd_of_nothing⟩
    rcases atEnd_of_torn hp hc with ⟨h0, -⟩ | ⟨-, hr'⟩ | ⟨is, items, -, -, -, hr'⟩
    · exact h0
    · exact nomatch hr.symm.trans hr'
    · exact nomatch hr.symm.trans hr'
  · refine ⟨fun hr => ?_, fun ⟨is, items, hn, _, hw⟩ => atEnd_of_unclosed hn hw⟩
    rcases atEnd_of_torn hp hc with ⟨-, hr'⟩ | ⟨-, hr'⟩ | ⟨is, items, hn, hi, hw, -⟩
    · exact nomatch hr.symm.trans hr'
    · exact nomatch hr.symm.trans hr'
    · exact ⟨is, items, hn, hi, hw⟩
  · intro hnone hend
    rcases atEnd_of_torn hp hc with ⟨-, hr⟩ | ⟨-, hr⟩ | ⟨is, items, -, -, -, hr⟩
    · exact absurd hr hnone
    · exact hr
    · exact absurd hr hend
  · rintro items rfl hlarge
    obtain ⟨before, i, after, rfl, hfits, hi⟩ := Call.exists_first_large hlarge
    obtain ⟨hbefore, hall⟩ := Call.write_of_large_item after hfits hi
    refine ⟨before, i, after, _, rfl, Nat.not_le.mp hi, hbefore, ?_, ?_⟩
    · intro patience answer closes
      simp only [Call.place, hall]
    · intro ps hp
      apply hpart ps
      · rw [hall]
        exact hp
      · rw [hall]
        exact .inr nofun

theorem length_utf8_replicate (n : Nat) :
    (Layout.utf8 (String.ofList (List.replicate n 'b'))).length = n := by
  change (String.ofList (List.replicate n 'b')).utf8ByteSize = n
  induction n with
  | zero => rfl
  | succ n ih =>
    rw [List.replicate_succ, String.ofList_cons, String.utf8ByteSize_append, ih,
      String.utf8ByteSize_singleton]
    exact Nat.add_comm 1 n

def largeItem : Item :=
  ⟨"a", String.ofList (List.replicate (Frame.maxBody + 1) 'b'), ⟨2⟩, ⟨0⟩⟩

def tornStory : Request := .narrate [firstItem, largeItem]

/-- Of a stream with a second item that is too large the first item is sent, and it is no call. -/
theorem undispatched_tornStory :
    (∃ i ∈ [firstItem, largeItem],
      Frame.maxBody < (Layout.clientFrame.write (.chunk i)).length) ∧
    (Call.write tornStory.frames).2 ≠ none ∧
    Undispatched [(Call.write tornStory.frames).1] ∧
    (read [(Call.write tornStory.frames).1]).atEnd =
      .error (.malformed .narrate "stream closed before its end marker") ∧
    ∃ size sent, ∀ patience answer closes, Call.place patience tornStory (.answers answer closes) =
      ⟨sent, .error (.wire (.tooLarge Frame.maxBody size)), 0⟩ := by
  have hlarge : Frame.maxBody < (Layout.clientFrame.write (.chunk largeItem)).length := by
    have hl : (Layout.utf8 largeItem.message).length ≤ _ :=
      Layout.length_utf8_le_clientFrame (f := .chunk largeItem) (.tail _ (.head _))
    rwa [largeItem, length_utf8_replicate] at hl
  have hfirst : ∀ j ∈ [firstItem], Frame.Fits .clientFrame (.chunk j) := by
    intro j hj
    rw [List.mem_singleton.mp hj, Frame.Fits]
    decide +kernel
  have hmem : ∃ i ∈ [firstItem, largeItem],
      Frame.maxBody < (Layout.clientFrame.write (.chunk i)).length :=
    ⟨largeItem, .tail _ (.head _), hlarge⟩
  obtain ⟨hsent, hall⟩ : _ ∧ Call.write tornStory.frames = _ :=
    Call.write_of_large_item [] hfirst (Nat.not_le.mpr hlarge)
  have hfault : (Call.write tornStory.frames).2 ≠ none := by
    rw [hall]
    nofun
  obtain ⟨hparts, hstream⟩ := undispatched_of_part tornStory
  obtain ⟨hno, -, hend, -⟩ := hparts [(Call.write tornStory.frames).1]
    ⟨[], by rw [List.flatten_singleton, List.append_nil]⟩ (.inr hfault)
  obtain ⟨-, i, -, sent, -, -, -, hplace, -⟩ := hstream _ rfl hmem
  refine ⟨hmem, hfault, hno, hend.mpr ⟨[firstItem], [largeItem], nofun, rfl, ?_⟩, _, sent, hplace⟩
  rw [List.flatten_singleton, hall, hsent]

end ScriptedPeer
