import ScriptedPeer.Lifecycle
import ScriptedPeer.Proofs.RequestLoop.Stopping

/-!
# Numbered items

A request takes the numbers of its items before it is sent, and it takes them for good: whatever
becomes of the call, the next request goes on where this one has ended. So the items of a whole run
are numbered from one on without a gap. The numbers of a stream are reserved in one go and put into
its items one by one. Both come to the same, beyond the largest number as well.
-/

namespace ScriptedPeer

namespace SequenceNumber

/-- So many numbers, one after the other. -/
def block (first : SequenceNumber) (count : Nat) : List SequenceNumber :=
  (List.range count).map first.advance

@[simp] theorem block_zero (first : SequenceNumber) : first.block 0 = [] := rfl

theorem block_succ (first : SequenceNumber) (count : Nat) :
    first.block (count + 1) = first :: first.next.block count := by
  have hnext (i : Nat) : first.advance (i + 1) = first.next.advance i := by
    rw [Nat.add_comm, advance_add, next]
  simp only [block, List.range_succ_eq_map, List.map_cons, List.map_map, advance_zero]
  exact congrArg _ (List.map_congr_left fun i _ => hnext i)

/-- Where one block ends, the next goes on. -/
theorem block_add (first : SequenceNumber) (m n : Nat) :
    first.block (m + n) = first.block m ++ (first.advance m).block n := by
  induction m generalizing first with
  | zero => rw [Nat.zero_add, advance_zero, block_zero, List.nil_append]
  | succ m ih =>
    have hnext : first.next.advance m = first.advance (m + 1) := by
      rw [next, ← advance_add, Nat.add_comm]
    rw [Nat.succ_add, block_succ, ih, block_succ, List.cons_append, hnext]

theorem getLast?_block (first : SequenceNumber) (count : Nat) :
    (first.block count).getLast? =
      if count = 0 then none else some (first.advance (count - 1)) := by
  cases count with
  | zero => rfl
  | succ count => simp [block, List.range_succ]

theorem getElem?_block {first : SequenceNumber} {count i : Nat} {n : SequenceNumber}
    (h : (first.block count)[i]? = some n) : n = first.advance i := by
  rw [block, List.getElem?_map, Option.map_eq_some_iff] at h
  obtain ⟨j, hj, rfl⟩ := h
  have hi := (List.getElem?_eq_some_iff.mp hj).1
  rw [List.length_range] at hi
  rw [List.getElem?_range hi, Option.some.injEq] at hj
  rw [hj]

/-- From one on the numbers are those of their places, up to the largest. -/
theorem value_advance_first (i : Nat) : (first.advance i).value.toNat = min (i + 1) maxValue := by
  rw [value_advance, Nat.add_comm]
  rfl

theorem values_block_first (count : Nat) : (first.block count).map (·.value.toNat) =
    (List.range count).map fun i => min (i + 1) maxValue := by
  rw [block, List.map_map]
  exact List.map_congr_left fun i _ => value_advance_first i

/-- As long as the numbers last, they are those from one to `count`. -/
theorem values_block_of_le {count : Nat} (h : count ≤ maxValue) :
    (List.range count).map (fun i => min (i + 1) maxValue) = List.range' 1 count := by
  rw [List.range'_eq_map_range]
  apply List.map_congr_left
  intro i hi
  have hlt := List.mem_range.mp hi
  omega

end SequenceNumber

/-- The numbers of its items, in order. -/
def Request.numbers : Request → List SequenceNumber
  | heartbeat _ | greet _ => []
  | tell item => [item.sequence]
  | narrate items => items.map Item.sequence

namespace Profile

theorem sequences_narrateLines (p : Profile) (clock : Nat → Timestamp) (count : Nat)
    (first : SequenceNumber) :
    (p.narrateLines clock count first).map Item.sequence = first.block count := by
  induction count generalizing first with
  | zero => rfl
  | succ count ih => rw [narrateLines, List.map_cons, ih, SequenceNumber.block_succ]

/-- A stream is numbered with one block. -/
theorem sequences_narrateItems (p : Profile) (first : SequenceNumber) (clock : Nat → Timestamp) :
    (p.narrateItems first clock).map Item.sequence = first.block p.narrateLength :=
  p.sequences_narrateLines clock p.narrateLength first

theorem sequence_of_getElem? (p : Profile) {first : SequenceNumber} {clock : Nat → Timestamp}
    {i : Nat} {item : Item} (h : (p.narrateItems first clock)[i]? = some item) :
    item.sequence = first.advance i := by
  have hget : (first.block p.narrateLength)[i]? = some item.sequence := by
    rw [← p.sequences_narrateItems first clock, List.getElem?_map, h, Option.map_some]
  exact SequenceNumber.getElem?_block hget

/-- The block of a stream ends with the number of its last item. -/
theorem getLast?_block_narrateLength (p : Profile) {first : SequenceNumber}
    {clock : Nat → Timestamp} {item : Item} (h : (p.narrateItems first clock).getLast? = some item) :
    (first.block p.narrateLength).getLast? = some item.sequence := by
  rw [← p.sequences_narrateItems first clock, List.getLast?_map, h, Option.map_some]

/-- A request carries as many numbers as it is said to use, from its first one on. -/
theorem numbers_request (p : Profile) (m : Method) (first : SequenceNumber)
    (clock : Nat → Timestamp) :
    (p.request m first clock).numbers = first.block (p.numbersUsed m) := by
  cases m with
  | heartbeat | greet => rfl
  | tell => rw [numbersUsed, SequenceNumber.block_succ]; rfl
  | narrate => exact p.sequences_narrateItems first clock

end Profile

namespace RequestLoop

/-- The last number that was reserved is the last of the block, if there is one. -/
theorem lastSequence_reserve (l : RequestLoop) (count : Nat) :
    (l.reserve count).tally.lastSequence =
      (l.next.block count).getLast?.or l.tally.lastSequence := by
  rw [reserve, SequenceNumber.getLast?_block]
  split <;> rfl

/-- A request leaves the last number of its block behind, and an empty one the number before. -/
theorem lastSequence_send (l : RequestLoop) (now : Nat) (phase : Phase) :
    (l.send now phase).tally.lastSequence =
      (l.next.block (l.profile.numbersUsed l.method)).getLast?.or l.tally.lastSequence :=
  l.lastSequence_reserve _

/-- What is reserved next follows the last number of the block. -/
theorem next_reserve_of_getLast? (l : RequestLoop) {count : Nat} {last : SequenceNumber}
    (h : (l.next.block count).getLast? = some last) : (l.reserve count).next = last.next := by
  rw [SequenceNumber.getLast?_block] at h
  split at h
  · cases h
  · next hne =>
    obtain rfl := Option.some.inj h
    rw [next_reserve, SequenceNumber.next, ← SequenceNumber.advance_add,
      Nat.sub_add_cancel (Nat.pos_of_ne_zero hne)]

@[simp] theorem lastSequence_count (t : Tally) (acknowledged : Bool) :
    (count t acknowledged).lastSequence = t.lastSequence := by
  cases acknowledged <;> rfl

@[simp] theorem tally_halt (l : RequestLoop) : l.halt.tally = l.tally := by
  unfold halt
  split <;> rfl

/-- Only an answer is still counted after the stop. -/
theorem tally_drained (l : RequestLoop) :
    (Lifecycle.drained l).tally = l.tally ∨
      ∃ acknowledged, (Lifecycle.drained l).tally = count l.tally acknowledged := by
  cases hphase : l.phase with
  | waiting => exact .inl (by simp only [Lifecycle.drained, hphase, tally_halt])
  | ended _ | crashed | aborted => exact .inl (by simp only [Lifecycle.drained, hphase])
  | calling back =>
    cases back with
    | never => exact .inl (by simp only [Lifecycle.drained, hphase])
    | atOnce acknowledged | «at» time acknowledged =>
      refine .inr ⟨acknowledged, ?_⟩
      simp only [Lifecycle.drained, hphase]
      split
      · rw [tally_halt]
        rfl
      · rfl

/-- However a loop is brought to its end, its attempts and its last number are those it had. -/
theorem report_of_end (l : RequestLoop) :
    ∀ l' ∈ [l, l.abort, Lifecycle.drained l], l'.report.tally.attempts = l.tally.attempts ∧
      l'.report.tally.lastSequence = l.tally.lastSequence := by
  intro l' hl'
  simp only [List.mem_cons, List.not_mem_nil, or_false] at hl'
  rcases hl' with rfl | rfl | rfl
  · exact ⟨rfl, rfl⟩
  · exact ⟨rfl, rfl⟩
  · simp only [report]
    rcases tally_drained l with h | ⟨acknowledged, h⟩
    · rw [h]
      exact ⟨rfl, rfl⟩
    · rw [h]
      exact ⟨attempts_count _ _, lastSequence_count _ _⟩

end RequestLoop

namespace LoopWorld

/-- The requests sent so far carry the numbers from one on, and the next one will follow. -/
structure Numbered (m : Method) (p : Profile) (w : LoopWorld) : Prop where
  method : w.loop.method = m
  profile : w.loop.profile = p
  next : w.loop.next = SequenceNumber.first.advance (w.sent.length * p.numbersUsed m)
  numbers : w.requests.flatMap Request.numbers =
    SequenceNumber.first.block (w.sent.length * p.numbersUsed m)
  last : w.loop.tally.lastSequence =
    (SequenceNumber.first.block (w.sent.length * p.numbersUsed m)).getLast?

variable {m : Method} {p : Profile} {w : LoopWorld}

theorem requests_send (w : LoopWorld) (script : CallScript) : (w.send script).requests =
    w.requests ++ [w.loop.request (script.stamp w.sent.length)] := by
  simp [requests, send]

theorem numbered_send (h : w.Numbered m p) (script : CallScript) :
    (w.send script).Numbered m p := by
  have hblock : SequenceNumber.first.block ((w.sent.length + 1) * p.numbersUsed m) =
      SequenceNumber.first.block (w.sent.length * p.numbersUsed m) ++
        w.loop.next.block (p.numbersUsed m) := by
    rw [Nat.succ_mul, SequenceNumber.block_add, h.next]
  refine ⟨?_, ?_, ?_, ?_, ?_⟩
  · rw [loop_send, RequestLoop.method_send, h.method]
  · rw [loop_send, RequestLoop.profile_send, h.profile]
  · rw [length_sent_send, Nat.succ_mul, SequenceNumber.advance_add, ← h.next, loop_send,
      RequestLoop.next_send, h.method, h.profile]
  · rw [length_sent_send, hblock, requests_send, List.flatMap_append, h.numbers,
      List.flatMap_singleton, RequestLoop.request, Profile.numbers_request, h.method, h.profile]
  · rw [length_sent_send, hblock, loop_send, RequestLoop.lastSequence_send, List.getLast?_append,
      h.method, h.profile, h.last]

theorem numbered_turn (h : w.Numbered m p) (script : CallScript) :
    (w.turn script).Numbered m p := by
  rcases w.action_cases with ⟨ha, -⟩ | ⟨ha, -⟩ | ⟨-, acknowledged, ha⟩ | ⟨-, ha⟩
  · rwa [turn_of_rest ha]
  · rw [turn, ha, act]
    exact numbered_send h script
  · rw [turn, ha, act]
    exact ⟨h.method, h.profile, h.next, h.numbers,
      (RequestLoop.lastSequence_count _ _).trans h.last⟩
  · rcases ha with ha | ⟨why, ha⟩
    · rw [turn, ha, act]
      exact ⟨h.method, h.profile, h.next, h.numbers, h.last⟩
    · rw [turn, ha, act]
      exact ⟨h.method, h.profile, h.next, h.numbers, h.last⟩

/-- At any time the numbers sent are one block, and the next number is the one behind it. -/
theorem numbered_run (h : w.Numbered m p) (script : CallScript) (schedule : Nat → Happening)
    (k : Nat) : (w.run script schedule k).Numbered m p := by
  induction k with
  | zero => exact h
  | succ k ih =>
    rw [run_succ]
    cases schedule k with
    | turn => exact numbered_turn ih script
    | pass _ | stop _ | trigger | closeTriggers =>
      exact ⟨ih.method, ih.profile, ih.next, ih.numbers, ih.last⟩

theorem numbered_started (m : Method) (c : Cadence) (p : Profile) (now : Nat) (stop : StopSignal)
    (triggers : Triggers) : (started m c p now stop triggers).Numbered m p where
  method := rfl
  profile := rfl
  next := by
    change SequenceNumber.first = SequenceNumber.first.advance (0 * _)
    rw [Nat.zero_mul, SequenceNumber.advance_zero]
  numbers := by
    change [] = SequenceNumber.first.block (0 * _)
    rw [Nat.zero_mul, SequenceNumber.block_zero]
  last := by
    change none = (SequenceNumber.first.block (0 * _)).getLast?
    rw [Nat.zero_mul, SequenceNumber.block_zero, List.getLast?_nil]

/-- At every moment the items that were sent are numbered from one on, as many as the attempts made
so far have used, whatever has become of the attempts, and the last of them is reported, however the
loop ends. What is reserved for a stream is what its items carry. -/
theorem numbers_without_gap (m : Method) (c : Cadence) (p : Profile) (start : Nat)
    (stop : StopSignal) (triggers : Triggers) (script : CallScript)
    (schedule : Nat → Happening) :
    (∀ k,
      let w := (started m c p start stop triggers).run script schedule k
      let numbers := (w.requests.flatMap Request.numbers).map (·.value.toNat)
      let count := w.loop.tally.attempts * p.numbersUsed m
      w.loop.tally.attempts = w.sent.length ∧
      numbers = (List.range count).map (fun i => min (i + 1) SequenceNumber.maxValue) ∧
      (count ≤ SequenceNumber.maxValue → numbers = List.range' 1 count) ∧
      ∀ l ∈ [w.loop, w.loop.abort, Lifecycle.drained w.loop],
        l.report.tally.attempts = w.loop.tally.attempts ∧
        l.report.tally.lastSequence.map (·.value.toNat) =
          if count = 0 then none else some (min count SequenceNumber.maxValue)) ∧
    ∀ (l : RequestLoop) (clock : Nat → Timestamp),
      let items := l.profile.narrateItems l.next clock
      let reserved := l.reserve l.profile.narrateLength
      (l.method = .narrate → l.request clock = .narrate items ∧ ∀ now phase,
        (l.send now phase).next = reserved.next ∧
        (l.send now phase).tally.lastSequence = reserved.tally.lastSequence) ∧
      items.length = l.profile.narrateLength ∧
      (∀ i item, items[i]? = some item →
        item.sequence.value.toNat = min (l.next.value.toNat + i) SequenceNumber.maxValue) ∧
      (items = [] → reserved = l) ∧
      ∀ item, items.getLast? = some item →
        reserved.tally.lastSequence = some item.sequence ∧ reserved.next = item.sequence.next := by
  refine ⟨fun k => ?_, fun l clock => ?_⟩
  · intro w numbers count
    have hattempts : w.loop.tally.attempts = w.sent.length :=
      (accounted_run (accounted_started m c p start stop triggers) script schedule k).attempts
    have h : w.Numbered m p :=
      numbered_run (numbered_started m c p start stop triggers) script schedule k
    have hcount : w.sent.length * p.numbersUsed m = count := by rw [← hattempts]
    have hnumbers : numbers =
        (List.range count).map (fun i => min (i + 1) SequenceNumber.maxValue) := by
      simp only [numbers, h.numbers, hcount, SequenceNumber.values_block_first]
    refine ⟨hattempts, hnumbers, fun hle => ?_, fun l hl => ?_⟩
    · rw [hnumbers, SequenceNumber.values_block_of_le hle]
    · obtain ⟨hsame, hlast⟩ := w.loop.report_of_end l hl
      refine ⟨hsame, ?_⟩
      rw [hlast, h.last, hcount, SequenceNumber.getLast?_block]
      split
      · rfl
      · rw [Option.map_some, SequenceNumber.value_advance_first]
        congr 2
        omega
  · intro items reserved
    have hlength : items.length = l.profile.narrateLength :=
      l.profile.length_narrateLines clock _ l.next
    refine ⟨fun hm => ?_, hlength, fun i item hi => ?_, fun hnil => ?_, fun item hlast => ?_⟩
    · rw [RequestLoop.request, hm]
      refine ⟨rfl, fun now phase => ?_⟩
      rw [RequestLoop.next_send, RequestLoop.lastSequence_send, RequestLoop.next_reserve,
        RequestLoop.lastSequence_reserve, hm]
      exact ⟨rfl, rfl⟩
    · rw [l.profile.sequence_of_getElem? hi, SequenceNumber.value_advance]
    · rw [hnil, List.length_nil] at hlength
      simp only [reserved, RequestLoop.reserve, if_pos hlength.symm]
    · have hend := l.profile.getLast?_block_narrateLength hlast
      refine ⟨?_, l.next_reserve_of_getLast? hend⟩
      rw [RequestLoop.lastSequence_reserve, hend, Option.some_or]

/-- Streams of two items, the first of which fails and the second of which is still on its way. -/
def twoStreams : LoopWorld :=
  (started .narrate (.periodic { interval := 10 }) ⟨"me", "me", ⟨"host", 1⟩, 2⟩ 0 {} {}).run
    ⟨fun i => if i = 0 then .atOnce false else .hangs, fun _ _ => ⟨0⟩⟩
    (fun k => if k = 2 then .pass 10 else .turn) 4

/-- Two streams of two items carry the numbers one to four. -/
theorem twoStreams_numbers :
    twoStreams.loop.tally.attempts * 2 ≤ SequenceNumber.maxValue ∧
    (twoStreams.requests.flatMap Request.numbers).map (·.value.toNat) = [1, 2, 3, 4] := by
  have hattempts : twoStreams.loop.tally.attempts = 2 := by decide
  obtain ⟨hruns, -⟩ := numbers_without_gap .narrate (.periodic { interval := 10 })
    ⟨"me", "me", ⟨"host", 1⟩, 2⟩ 0 {} {}
    ⟨fun i => if i = 0 then .atOnce false else .hangs, fun _ _ => ⟨0⟩⟩
    (fun k => if k = 2 then .pass 10 else .turn)
  obtain ⟨-, -, hnumbers, -⟩ := hruns 4
  have hle : twoStreams.loop.tally.attempts * 2 ≤ SequenceNumber.maxValue := by
    rw [hattempts]
    decide
  refine ⟨hle, (hnumbers hle).trans ?_⟩
  change List.range' 1 (twoStreams.loop.tally.attempts * 2) = _
  rw [hattempts]
  rfl

end LoopWorld
end ScriptedPeer
