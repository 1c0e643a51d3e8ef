import ScriptedPeer.Call.Exchange
import ScriptedPeer.Proofs.Wire.Delivery

/-!
# Calls as they arrive

The frames of a request are read as that request and nothing else. As long as a byte of them is
missing, the call is open: more bytes may still complete it, and until then it is neither taken for
a call nor refused.
-/

namespace ScriptedPeer

open Wire

/-- Every frame of the request may be written. -/
def Request.Fits (r : Request) : Prop := ∀ f ∈ r.frames, Frame.Fits .clientFrame f

/-- The bytes of frames one after the other. -/
def framesBytes (fs : List ClientFrame) : Bytes := fs.flatMap (Frame.bytes .clientFrame)

@[simp] theorem framesBytes_cons (f : ClientFrame) (fs : List ClientFrame) :
    framesBytes (f :: fs) = Frame.bytes .clientFrame f ++ framesBytes fs := rfl

theorem framesBytes_append (fs gs : List ClientFrame) :
    framesBytes (fs ++ gs) = framesBytes fs ++ framesBytes gs := List.flatMap_append ..

/-- A frame has as many bytes at least as the stream has frames. -/
theorem length_le_framesBytes (fs : List ClientFrame) : fs.length ≤ (framesBytes fs).length := by
  induction fs with
  | nil => exact Nat.le_refl 0
  | cons f fs ih =>
    rw [framesBytes_cons, List.length_append, List.length_cons, Frame.length_bytes,
      Frame.headerSize]
    omega

namespace Call

/-- Frames that may be written are all written, and then those that follow them. -/
theorem write_append (fs gs : List ClientFrame) (h : ∀ f ∈ fs, Frame.Fits .clientFrame f) :
    write (fs ++ gs) = (framesBytes fs ++ (write gs).1, (write gs).2) := by
  induction fs with
  | nil => rfl
  | cons f fs ih =>
    have hf := Frame.encode_of_fits (h f (.head _))
    have ht := ih fun g hg => h g (.tail _ hg)
    simp only [List.cons_append, write, hf, ht, framesBytes_cons, List.append_assoc]

theorem write_of_fits (fs : List ClientFrame) (h : ∀ f ∈ fs, Frame.Fits .clientFrame f) :
    write fs = (framesBytes fs, none) := by
  have ha := write_append fs [] h
  rw [List.append_nil] at ha
  rw [ha, write, List.append_nil]

/-- A frame that is too large is not written, and nothing after it. -/
theorem write_of_large {f : ClientFrame} (h : ¬Frame.Fits .clientFrame f)
    (more : List ClientFrame) : write (f :: more) =
      ([], some (.tooLarge Frame.maxBody (Layout.clientFrame.write f).length)) := by
  have he : Frame.encode .clientFrame f =
      .error (.tooLarge Frame.maxBody (Layout.clientFrame.write f).length) := if_neg h
  simp only [write, he]

/-- The frames up to the first that is too large are written. -/
theorem exists_written (fs : List ClientFrame) : ∃ done left, fs = done ++ left ∧
    (∀ f ∈ done, Frame.Fits .clientFrame f) ∧ (write fs).1 = framesBytes done ∧
    (left = [] ∧ (write fs).2 = none ∨ ∃ f more, left = f :: more ∧
      ¬Frame.Fits .clientFrame f ∧ (write fs).2 =
        some (.tooLarge Frame.maxBody (Layout.clientFrame.write f).length)) := by
  induction fs with
  | nil => exact ⟨[], [], rfl, List.forall_mem_nil _, rfl, .inl ⟨rfl, rfl⟩⟩
  | cons f fs ih =>
    by_cases hf : Frame.Fits .clientFrame f
    · obtain ⟨done, left, rfl, hd, hw, hl⟩ := ih
      have hc := write_append [f] (done ++ left) (List.forall_mem_singleton.mpr hf)
      rw [List.singleton_append] at hc
      refine ⟨f :: done, left, rfl, List.forall_mem_cons.mpr ⟨hf, hd⟩, ?_, ?_⟩
      · rw [hc, hw, framesBytes_cons]
        simp [framesBytes]
      · rw [hc]
        exact hl
    · refine ⟨[], f :: fs, rfl, List.forall_mem_nil _, ?_, .inr ⟨f, fs, rfl, hf, ?_⟩⟩
      · rw [write_of_large hf]
        rfl
      · rw [write_of_large hf]

theorem fits_of_write {fs : List ClientFrame} {sent : Bytes} (h : write fs = (sent, none)) :
    (∀ f ∈ fs, Frame.Fits .clientFrame f) ∧ sent = framesBytes fs := by
  obtain ⟨done, left, rfl, hd, hw, ⟨rfl, -⟩ | ⟨f, more, rfl, -, hfault⟩⟩ := exists_written fs
  · rw [List.append_nil] at h hw ⊢
    rw [h] at hw
    exact ⟨hd, hw⟩
  · rw [h] at hfault
    cases hfault

end Call

/-- The first of some frames is read, and the others are left. -/
theorem readFrame_framesBytes {f : ClientFrame} {fs : List ClientFrame} {ps : Pieces} {more : Bytes}
    (hf : Frame.Fits .clientFrame f) (h : ps.flatten = framesBytes (f :: fs) ++ more) :
    ∃ rest, readFrame .clientFrame ps = .frame f rest ∧
      rest.flatten = framesBytes fs ++ more := by
  rw [framesBytes_cons, List.append_assoc] at h
  exact readFrame_bytes hf (clientFrame_readsBack_of_fits hf) h

/-- A request of which a frame is left out at the end is left with items of a Narrate, if any. -/
theorem Request.frames_eq_append {r : Request} {done left : List ClientFrame}
    (h : r.frames = done ++ left) (hl : left ≠ []) :
    ∃ is : List Item, done = is.map .chunk ∧ (is ≠ [] → ∃ items, r = .narrate (is ++ items)) := by
  cases r with
  | heartbeat _ | greet _ | tell _ =>
    cases done with
    | nil => exact ⟨[], rfl, fun hn => absurd rfl hn⟩
    | cons f fs =>
      obtain ⟨-, hnil⟩ := List.cons.inj h
      exact absurd (List.append_eq_nil_iff.mp hnil.symm).2 hl
  | narrate items =>
    rcases List.append_eq_append_iff.mp h with ⟨as, rfl, ha⟩ | ⟨bs, hb, -⟩
    · have hnil : as = [] := by
        cases as with
        | nil => rfl
        | cons a as =>
          obtain ⟨-, hnil⟩ := List.cons.inj ha
          exact absurd (List.append_eq_nil_iff.mp hnil.symm).2 hl
      refine ⟨items, by rw [hnil, List.append_nil], fun _ => ⟨[], ?_⟩⟩
      rw [List.append_nil]
    · obtain ⟨is, others, rfl, rfl, -⟩ := List.map_eq_append_iff.mp hb
      exact ⟨is, rfl, fun _ => ⟨others, rfl⟩⟩

namespace CallReading

/-- The items of a stream are read one after the other. -/
theorem items_of_chunks (is before : List Item) (h : ∀ i ∈ is, Frame.Fits .clientFrame (.chunk i))
    (count : Nat) (ps : Pieces) (more : Bytes)
    (hp : ps.flatten = framesBytes (is.map .chunk) ++ more) :
    ∃ rest, items (is.length + count) before ps = items count (is.reverse ++ before) rest ∧
      rest.flatten = more := by
  induction is generalizing before ps with
  | nil => exact ⟨ps, by rw [List.length_nil, Nat.zero_add]; rfl, hp⟩
  | cons i is ih =>
    obtain ⟨ps', hr, he⟩ := readFrame_framesBytes (h i (.head _)) hp
    obtain ⟨rest, hi, hm⟩ := ih (i :: before) (fun j hj => h j (.tail _ hj)) ps' he
    refine ⟨rest, ?_, hm⟩
    rw [List.length_cons, Nat.add_right_comm, items, hr]
    simp only [hi, List.reverse_cons, List.append_assoc, List.singleton_append]

/-- A stream that begins with items is read on behind them. Every item takes a byte at least, so the
reader's count of frames is not used up by them. -/
theorem read_of_chunks {is : List Item} (hn : is ≠ [])
    (h : ∀ i ∈ is, Frame.Fits .clientFrame (.chunk i)) {ps : Pieces} {more : Bytes}
    (hp : ps.flatten = framesBytes (is.map .chunk) ++ more) :
    ∃ count rest, read ps = items (count + 1) is.reverse rest ∧ rest.flatten = more := by
  obtain ⟨i, is, rfl⟩ := List.exists_cons_of_ne_nil hn
  obtain ⟨ps', hr, he⟩ := readFrame_framesBytes (h i (.head _)) hp
  have hc : is.length ≤ ps'.size := by
    have hl := length_le_framesBytes (is.map ClientFrame.chunk)
    rw [Pieces.size_eq_length_flatten, he, List.length_append]
    rw [List.length_map] at hl
    omega
  obtain ⟨rest, hi, hm⟩ := items_of_chunks is [i] (fun j hj => h j (.tail _ hj))
    (ps'.size - is.length + 1) ps' more he
  refine ⟨ps'.size - is.length, rest, ?_, hm⟩
  rw [← Nat.add_assoc, Nat.add_sub_cancel' hc] at hi
  simp only [read, hr, hi, List.reverse_cons]

/-- The frames of a request are read as the request, and what follows them is left. -/
theorem read_of_frames (r : Request) (h : r.Fits) (ps : Pieces) (more : Bytes)
    (hp : ps.flatten = framesBytes r.frames ++ more) :
    ∃ rest, read ps = .call r rest ∧ rest.flatten = more := by
  cases r with
  | heartbeat identity =>
    obtain ⟨rest, hr, he⟩ := readFrame_framesBytes (h (.heartbeat identity) (.head _)) hp
    exact ⟨rest, by simp only [read, hr], he⟩
  | greet g =>
    obtain ⟨rest, hr, he⟩ := readFrame_framesBytes (h (.greet g) (.head _)) hp
    exact ⟨rest, by simp only [read, hr], he⟩
  | tell i =>
    obtain ⟨rest, hr, he⟩ := readFrame_framesBytes (h (.tell i) (.head _)) hp
    exact ⟨rest, by simp only [read, hr], he⟩
  | narrate is =>
    have hend : Frame.Fits .clientFrame .finish := h .finish (List.mem_append_right _ (.head _))
    by_cases hn : is = []
    · subst hn
      obtain ⟨rest, hr, he⟩ := readFrame_framesBytes hend hp
      exact ⟨rest, by simp only [read, hr], he⟩
    · rw [Request.frames, framesBytes_append, List.append_assoc] at hp
      have hi : ∀ i ∈ is, Frame.Fits .clientFrame (.chunk i) := fun i hi =>
        h _ (List.mem_append_left _ (List.mem_map_of_mem hi))
      obtain ⟨count, ps', hread, hp'⟩ := read_of_chunks hn hi hp
      obtain ⟨rest, hr, he⟩ := readFrame_framesBytes hend hp'
      exact ⟨rest, by simp only [hread, items, hr, List.reverse_reverse], he⟩

/-- Items of which the next frame is missing, or a part of it: what has arrived of it decides whether
this is nothing yet, a stream that is not closed, or a part of a frame. -/
theorem read_of_torn {is : List Item} (h : ∀ i ∈ is, Frame.Fits .clientFrame (.chunk i))
    {ps : Pieces} {torn : Bytes} (hp : ps.flatten = framesBytes (is.map .chunk) ++ torn)
    (ht : torn ≠ [] → ∃ f missing, Frame.Fits .clientFrame f ∧ missing ≠ [] ∧
      torn ++ missing = Frame.bytes .clientFrame f) :
    read ps = if torn ≠ [] then .part else if is = [] then .nothing else .unclosed := by
  by_cases hn : is = []
  · subst hn
    change ps.flatten = torn at hp
    by_cases h0 : torn = []
    · simp only [read, readFrame_of_nil _ (hp.trans h0), h0, ne_eq, not_true_eq_false, if_true,
        if_false]
    · obtain ⟨f, missing, hf, hm, hb⟩ := ht h0
      rw [← hp] at hb h0 ⊢
      simp only [read, readFrame_of_torn hf hb h0 hm, if_pos h0]
  · obtain ⟨count, rest, hread, hr⟩ := read_of_chunks hn h hp
    rw [hread]
    by_cases h0 : torn = []
    · simp only [items, readFrame_of_nil _ (hr.trans h0), h0, hn, ne_eq, not_true_eq_false,
        if_false]
    · obtain ⟨f, missing, hf, hm, hb⟩ := ht h0
      rw [← hr] at hb h0 ⊢
      simp only [items, readFrame_of_torn hf hb h0 hm, if_pos h0]

/-- What arrives of a call that is not written in full: items of a Narrate, if any, and then nothing
or a part of a frame. -/
theorem exists_torn {r : Request} {front : Bytes} (hp : front <+: (Call.write r.frames).1)
    (hc : front ≠ (Call.write r.frames).1 ∨ (Call.write r.frames).2 ≠ none) :
    ∃ (is : List Item) (torn : Bytes), (∀ i ∈ is, Frame.Fits .clientFrame (.chunk i)) ∧
      (is ≠ [] → ∃ items, r = .narrate (is ++ items)) ∧
      front = framesBytes (is.map .chunk) ++ torn ∧
      (torn ≠ [] → ∃ f missing, Frame.Fits .clientFrame f ∧ missing ≠ [] ∧
        torn ++ missing = Frame.bytes .clientFrame f) := by
  obtain ⟨written, unwritten, hfs, hfits, hsent, hfault⟩ := Call.exists_written r.frames
  rw [hsent] at hp hc
  obtain ⟨behind, hb⟩ := hp
  obtain ⟨done, left, torn, rfl, hfront, hcut⟩ := Frame.exists_cut hb
  -- A frame is missing: either it was cut off or it was never written.
  have hmissing : left ++ unwritten ≠ [] := by
    intro hnil
    obtain ⟨rfl, rfl⟩ := List.append_eq_nil_iff.mp hnil
    have htorn : torn = [] := by
      rcases hcut with ⟨-, ht⟩ | ⟨f, more, _, hl, -⟩
      · exact ht
      · cases hl
    have hnone : (Call.write r.frames).2 = none := by
      rcases hfault with ⟨-, hn⟩ | ⟨f, more, hl, -⟩
      · exact hn
      · cases hl
    rw [htorn, List.append_nil] at hfront
    rw [List.append_nil] at hc
    exact hc.elim (fun hne => hne hfront) fun hne => hne hnone
  obtain ⟨is, rfl, hr⟩ :=
    Request.frames_eq_append (hfs.trans (List.append_assoc ..)) hmissing
  refine ⟨is, torn, ?_, hr, hfront, ?_⟩
  · intro i hi
    exact hfits _ (List.mem_append_left _ (List.mem_map_of_mem hi))
  · intro ht
    rcases hcut with ⟨-, hnil⟩ | ⟨f, more, missing, rfl, hm, hf⟩
    · exact absurd hnil ht
    · exact ⟨f, missing, hfits f (List.mem_append_right _ (.head _)), hm, hf⟩

/-- A request of which a byte is missing is open. -/
theorem read_of_front (r : Request) (h : r.Fits) (ps : Pieces) (missing : Bytes)
    (hm : missing ≠ []) (hp : ps.flatten ++ missing = framesBytes r.frames) :
    (read ps).isOpen = true := by
  have hw := Call.write_of_fits r.frames h
  have hne : ps.flatten ≠ (Call.write r.frames).1 := by
    intro he
    rw [hw, ← hp] at he
    exact hm (List.append_right_eq_self.mp he.symm)
  obtain ⟨is, torn, hi, -, hfront, ht⟩ :=
    exists_torn (r := r) ⟨missing, by rw [hw]; exact hp⟩ (.inl hne)
  rw [read_of_torn hi hfront ht]
  split
  · rfl
  · split <;> rfl

end CallReading
end ScriptedPeer
