import ScriptedPeer.Proofs.Call.Delivery

/-!
# Which frames are a call

Frames that have all been written are read as the one request whose frames stand in front of them.
Without such a request there are no frames at all, or there is a stream of items that is never
closed: the bytes end behind an item, or a frame of another method stands inside the stream.
-/

namespace ScriptedPeer

open Wire

/-- What frames can be to a reader of calls. -/
inductive CallShape : List ClientFrame → Prop where
  | nothing : CallShape []
  | call (r : Request) (left : List ClientFrame) : CallShape (r.frames ++ left)
  | unclosed (is : List Item) (h : is ≠ []) : CallShape (is.map .chunk)
  | interrupted (is : List Item) (h : is ≠ []) (f : ClientFrame) (more : List ClientFrame)
      (hf : f.method ≠ .narrate) : CallShape (is.map .chunk ++ f :: more)

/-- The items at the front of some frames. -/
theorem exists_chunks (fs : List ClientFrame) : ∃ (is : List Item) (tail : List ClientFrame),
    fs = is.map .chunk ++ tail ∧ ∀ i more, tail ≠ .chunk i :: more := by
  induction fs with
  | nil => exact ⟨[], [], rfl, fun _ _ h => nomatch h⟩
  | cons f fs ih =>
    cases f with
    | chunk i =>
      obtain ⟨is, tail, rfl, ht⟩ := ih
      exact ⟨i :: is, tail, rfl, ht⟩
    | heartbeat _ | greet _ | tell _ | finish =>
      exact ⟨[], _, rfl, fun i more h => nomatch h⟩

theorem callShape (fs : List ClientFrame) : CallShape fs := by
  obtain ⟨is, tail, rfl, ht⟩ := exists_chunks fs
  by_cases hn : is = []
  · subst hn
    cases tail with
    | nil => exact .nothing
    | cons f more =>
      cases f with
      | heartbeat identity => exact .call (.heartbeat identity) more
      | greet g => exact .call (.greet g) more
      | tell i => exact .call (.tell i) more
      | chunk i => exact absurd rfl (ht i more)
      | finish => exact .call (.narrate []) more
  · cases tail with
    | nil =>
      rw [List.append_nil]
      exact .unclosed is hn
    | cons f more =>
      cases f with
      | heartbeat identity => exact .interrupted is hn (.heartbeat identity) more nofun
      | greet g => exact .interrupted is hn (.greet g) more nofun
      | tell i => exact .interrupted is hn (.tell i) more nofun
      | chunk i => exact absurd rfl (ht i more)
      | finish =>
        have hs := CallShape.call (.narrate is) more
        rwa [Request.frames, List.append_assoc] at hs

theorem Request.frames_ne_nil (r : Request) : r.frames ≠ [] := by
  cases r <;> simp [frames]

namespace CallReading

variable {fs : List ClientFrame} {ps : Pieces}

/-- A request in front of the frames is read, and the frames behind it are left. -/
theorem atEnd_of_request (h : Call.write fs = (ps.flatten, none)) {r : Request}
    {left : List ClientFrame} (hl : fs = r.frames ++ left) : ∃ rest,
      (read ps).atEnd = .ok (some (r, rest)) ∧ Call.write left = (rest.flatten, none) := by
  subst hl
  obtain ⟨hfits, hps⟩ := Call.fits_of_write h
  rw [framesBytes_append] at hps
  obtain ⟨rest, hr, hleft⟩ :=
    read_of_frames r (fun f hf => hfits f (List.mem_append_left _ hf)) ps _ hps
  refine ⟨rest, by rw [hr]; rfl, ?_⟩
  rw [hleft]
  exact Call.write_of_fits left fun f hf => hfits f (List.mem_append_right _ hf)

theorem atEnd_of_nothing (h : ps.flatten = []) : (read ps).atEnd = .ok none := by
  simp only [read, readFrame_of_nil _ h, atEnd]

/-- Items without a closing frame behind them are a stream that is not closed. -/
theorem atEnd_of_unclosed {is : List Item} (hn : is ≠ [])
    (h : Call.write (is.map .chunk) = (ps.flatten, none)) :
    (read ps).atEnd = .error missingEnd := by
  obtain ⟨hfits, hps⟩ := Call.fits_of_write h
  have hi : ∀ i ∈ is, Frame.Fits .clientFrame (.chunk i) := fun i hi =>
    hfits _ (List.mem_map_of_mem hi)
  rw [read_of_torn hi (hps.trans (List.append_nil _).symm) fun h0 => absurd rfl h0]
  simp only [ne_eq, not_true_eq_false, if_false, if_neg hn, atEnd]

/-- A frame of another method inside a stream is refused. -/
theorem atEnd_of_interrupted {is : List Item} (hn : is ≠ []) {f : ClientFrame}
    (hf : f.method ≠ .narrate) {more : List ClientFrame}
    (h : Call.write (is.map .chunk ++ f :: more) = (ps.flatten, none)) :
    (read ps).atEnd = .error (unexpectedFrame f) := by
  obtain ⟨hfits, hps⟩ := Call.fits_of_write h
  have hi : ∀ i ∈ is, Frame.Fits .clientFrame (.chunk i) := fun i hi =>
    hfits _ (List.mem_append_left _ (List.mem_map_of_mem hi))
  have hff : Frame.Fits .clientFrame f := hfits f (List.mem_append_right _ (.head _))
  rw [framesBytes_append] at hps
  obtain ⟨count, rest, hread, hr⟩ := read_of_chunks hn hi hps
  rw [← List.append_nil (framesBytes (f :: more))] at hr
  obtain ⟨rest, hframe, -⟩ := readFrame_framesBytes hff hr
  rw [hread]
  cases f with
  | heartbeat _ | greet _ | tell _ => simp only [items, hframe, atEnd]
  | chunk _ | finish => exact absurd rfl hf

/-- No other request is read than the one whose frames stand in front. -/
theorem exists_left_of_atEnd (h : Call.write fs = (ps.flatten, none)) {r : Request} {rest : Pieces}
    (hr : (read ps).atEnd = .ok (some (r, rest))) :
    ∃ left, fs = r.frames ++ left ∧ Call.write left = (rest.flatten, none) := by
  cases callShape fs with
  | nothing =>
    rw [atEnd_of_nothing (Call.fits_of_write h).2] at hr
    cases hr
  | call r' left =>
    obtain ⟨rest', hread, hleft⟩ := atEnd_of_request h rfl
    rw [hread] at hr
    cases hr
    exact ⟨left, rfl, hleft⟩
  | unclosed is hn =>
    rw [atEnd_of_unclosed hn h] at hr
    cases hr
  | interrupted is hn f more hf =>
    rw [atEnd_of_interrupted hn hf h] at hr
    cases hr

theorem atEnd_eq_none_iff (h : Call.write fs = (ps.flatten, none)) :
    (read ps).atEnd = .ok none ↔ fs = [] := by
  cases callShape fs with
  | nothing => simp [atEnd_of_nothing (Call.fits_of_write h).2]
  | call r left =>
    obtain ⟨rest, hread, -⟩ := atEnd_of_request h rfl
    simp [hread, r.frames_ne_nil]
  | unclosed is hn => simp [atEnd_of_unclosed hn h, hn]
  | interrupted is hn f more hf => simp [atEnd_of_interrupted hn hf h]

/-- What frames that have all been written are read as when nothing follows them. -/
theorem atEnd_read_of_written (fs : List ClientFrame) (ps : Pieces)
    (h : Call.write fs = (ps.flatten, none)) :
    -- A request is read exactly if its frames stand in front.
    (∀ r, (∃ rest, (read ps).atEnd = .ok (some (r, rest))) ↔ r.frames <+: fs) ∧
    -- Its frames are taken, and the others are left.
    (∀ r rest, (read ps).atEnd = .ok (some (r, rest)) →
      ∃ left, fs = r.frames ++ left ∧ Call.write left = (rest.flatten, none)) ∧
    ((read ps).atEnd = .ok none ↔ fs = []) ∧
    -- All other frames are a stream that is not closed.
    (fs ≠ [] → (∀ r : Request, ¬r.frames <+: fs) → ∃ is : List Item, is ≠ [] ∧
      (fs = is.map .chunk ∧
          (read ps).atEnd = .error (.malformed .narrate "stream closed before its end marker") ∨
        ∃ f more, fs = is.map .chunk ++ f :: more ∧ f.method ≠ .narrate ∧
          (read ps).atEnd =
            .error (.malformed .narrate (f.method.name ++ " frame inside the stream")))) := by
  refine ⟨fun r => ⟨?_, ?_⟩, fun r rest => exists_left_of_atEnd h, atEnd_eq_none_iff h, ?_⟩
  · rintro ⟨rest, hr⟩
    obtain ⟨left, rfl, -⟩ := exists_left_of_atEnd h hr
    exact List.prefix_append ..
  · rintro ⟨left, hl⟩
    obtain ⟨rest, hr, -⟩ := atEnd_of_request h hl.symm
    exact ⟨rest, hr⟩
  · intro hne hno
    cases callShape fs with
    | nothing => exact absurd rfl hne
    | call r left => exact absurd (List.prefix_append ..) (hno r)
    | unclosed is hn => exact ⟨is, hn, .inl ⟨rfl, atEnd_of_unclosed hn h⟩⟩
    | interrupted is hn f more hf =>
      exact ⟨is, hn, .inr ⟨f, more, rfl, hf, atEnd_of_interrupted hn hf h⟩⟩

def firstItem : Item := ⟨"a", "b", ⟨1⟩, ⟨0⟩⟩

def followedStream : List ClientFrame := [.chunk firstItem, .finish, .heartbeat "c"]

/-- A stream of one item is read, and the frame behind it is left. -/
theorem atEnd_read_followedStream :
    Call.write followedStream = (List.flatten [(Call.write followedStream).1], none) ∧
    ∃ rest, (read [(Call.write followedStream).1]).atEnd =
        .ok (some (.narrate [firstItem], rest)) ∧
      Call.write [.heartbeat "c"] = (rest.flatten, none) := by
  have hw : Call.write followedStream =
      (List.flatten [(Call.write followedStream).1], none) := by decide +kernel
  obtain ⟨hread, hleft, -⟩ := atEnd_read_of_written followedStream _ hw
  obtain ⟨rest, hr⟩ := (hread (.narrate [firstItem])).mpr ⟨[.heartbeat "c"], rfl⟩
  obtain ⟨left, hl, hrest⟩ := hleft _ rest hr
  obtain rfl : [.heartbeat "c"] = left := by simpa [followedStream, Request.frames] using hl
  exact ⟨hw, rest, hr, hrest⟩

end CallReading
end ScriptedPeer
