import Mathlib.Algebra.Ring.Nat
import ScriptedPeer.Proofs.Serving.World

/-!
# What becomes of the visits

Only two kinds of steps matter to the service table and the stop: a call that is dispatched, and a
stop that somebody gives. Whatever else happens, the answers stay as they are. What has been written
on a connection is the front of its answer. A connection that is closed stays as it is, and one that
is open is closed only by what is done on it, or at the deadline.
-/

namespace ScriptedPeer

open Wire

/-- An element is replaced by another one. -/
theorem countP_set_add {α : Type} {p : α → Bool} {l : List α} {n : Nat} {a : α}
    (h : l[n]? = some a) (a' : α) :
    (l.set n a').countP p + (if p a then 1 else 0) = l.countP p + if p a' then 1 else 0 := by
  obtain ⟨hn, rfl⟩ := List.getElem?_eq_some_iff.mp h
  have hle : (if p l[n] then 1 else 0) ≤ l.countP p := List.boole_getElem_le_countP hn
  rw [List.countP_set hn]
  omega

def ServerFrame.isReply : ServerFrame → Bool
  | reply _ => true
  | unimplemented _ => false

def Response.isReply : Response → Bool
  | reply _ => true
  | withhold | unimplemented _ => false

/-- How many replies there are in what was written. -/
def repliesIn (written : Bytes) : Nat :=
  (Frame.decodeStream Layout.serverFrame written).1.countP (·.1.isReply)

/-- The front of a frame holds the frame or nothing. -/
theorem repliesIn_of_front {f : ServerFrame} {front left : Bytes}
    (h : Frame.encode .serverFrame f = .ok (front ++ left)) :
    repliesIn front ≤ if f.isReply then 1 else 0 := by
  obtain ⟨hfits, hbytes⟩ := Frame.encode_eq_ok h
  by_cases hfront : front = []
  · rw [hfront]
    exact Nat.zero_le _
  by_cases hleft : left = []
  · have hd := Frame.decode_bytes_append hfits (serverFrame_readsBack_of_fits hfits) []
    rw [hleft, List.append_nil] at hbytes
    rw [List.append_nil, ← hbytes] at hd
    rw [repliesIn, Frame.decodeStream_of_ok hd, List.drop_length, Frame.decodeStream_nil]
    exact Nat.le_of_eq List.countP_singleton
  · rw [repliesIn, Frame.decodeStream_of_error hfront (Frame.decode_of_cut hfits hleft hbytes)]
    exact Nat.zero_le _

/-- What was written of an answer holds a reply at most, and only if the answer is one. -/
theorem repliesIn_of_response {response : Response} {front left : Bytes}
    (h : Server.encodeResponse response = .ok (front ++ left)) :
    repliesIn front ≤ if response.isReply then 1 else 0 := by
  cases response with
  | reply r => exact repliesIn_of_front (f := .reply r) h
  | unimplemented m => exact repliesIn_of_front (f := .unimplemented m) h
  | withhold =>
    obtain ⟨rfl, -⟩ := List.append_eq_nil_iff.mp (Except.ok.inj h).symm
    exact Nat.zero_le _

namespace Visit

/-- What has been written is the front of the answer. A connection whose answer is not over has some
of it left. -/
def Faithful (v : Visit) : Prop :=
  match v.stage with
  | .reading => v.written = []
  | .writing response left =>
    left ≠ [] ∧ Server.encodeResponse response = .ok (v.written ++ left)
  | .closed none => v.written = []
  | .closed (some response) =>
    v.written = [] ∨ ∃ left, Server.encodeResponse response = .ok (v.written ++ left)

/-- Whether a reply was the answer. -/
def isReplied (v : Visit) : Bool := v.answer?.any Response.isReply

/-- A visit is sent a reply at most, and only if a reply was its answer. -/
theorem Faithful.repliesIn_le {v : Visit} (h : v.Faithful) :
    repliesIn v.written ≤ if v.isReplied then 1 else 0 := by
  have hnone (hw : v.written = []) : repliesIn v.written ≤ if v.isReplied then 1 else 0 := by
    rw [hw]
    exact Nat.zero_le _
  cases hs : v.stage with
  | reading =>
    simp only [Faithful, hs] at h
    exact hnone h
  | writing response left =>
    simp only [Faithful, hs] at h
    simpa only [isReplied, answer?, hs, Option.any_some] using repliesIn_of_response h.2
  | closed response =>
    cases response with
    | none =>
      simp only [Faithful, hs] at h
      exact hnone h
    | some response =>
      simp only [Faithful, hs] at h
      rcases h with h | ⟨left, h⟩
      · exact hnone h
      · simpa only [isReplied, answer?, hs, Option.any_some] using repliesIn_of_response h

theorem Faithful.arrive {v : Visit} (h : v.Faithful) (bytes : Bytes) :
    (v.arrive bytes).Faithful := by
  unfold Visit.arrive
  split <;> exact h

theorem Faithful.close {v : Visit} (h : v.Faithful) : v.close.Faithful := by
  unfold Visit.close
  split <;> exact h

theorem Faithful.giveUp {v : Visit} (h : v.Faithful) : v.giveUp.Faithful := by
  cases hs : v.stage with
  | reading =>
    simp only [Faithful, hs] at h
    simpa only [Faithful, Visit.giveUp, answer?, hs] using h
  | writing response left =>
    simp only [Faithful, hs] at h
    simp only [Faithful, Visit.giveUp, answer?, hs]
    exact .inr ⟨left, h.2⟩
  | closed response => simpa only [Visit.giveUp, answer?, hs, Faithful] using h

@[simp] theorem answer?_arrive (v : Visit) (bytes : Bytes) :
    (v.arrive bytes).answer? = v.answer? := by
  unfold Visit.arrive
  split <;> rfl

@[simp] theorem answer?_close (v : Visit) : v.close.answer? = v.answer? := by
  unfold Visit.close
  split <;> rfl

@[simp] theorem isOpen_arrive (v : Visit) (bytes : Bytes) : (v.arrive bytes).isOpen = v.isOpen := by
  unfold Visit.arrive
  split <;> rfl

@[simp] theorem isOpen_close (v : Visit) : v.close.isOpen = v.isOpen := by
  unfold Visit.close
  split <;> rfl

theorem arrive_of_closed {v : Visit} (h : v.isOpen = false) (bytes : Bytes) :
    v.arrive bytes = v := by
  rw [Visit.arrive, if_neg]
  rintro ⟨hs, -⟩
  simp [isOpen, hs] at h

theorem close_of_closed {v : Visit} (h : v.isOpen = false) : v.close = v := by
  rw [Visit.close, if_neg (by simp [h])]

theorem giveUp_of_closed {v : Visit} (h : v.isOpen = false) : v.giveUp = v := by
  cases hs : v.stage with
  | reading | writing _ _ => simp [isOpen, hs] at h
  | closed response =>
    rw [Visit.giveUp, answer?, hs]
    cases v
    simp_all

end Visit

namespace Reception

variable {w : Reception} {n : Nat} {v : Visit}

/-- To how many visitors a reply was the answer. -/
def replies (w : Reception) : Nat := w.visits.countP Visit.isReplied

/-- How many replies have been written. -/
def repliesWritten (w : Reception) : Nat := (w.visits.map fun v => repliesIn v.written).sum

/-- No more replies are written than the service table has given. -/
theorem repliesWritten_le (h : ∀ v ∈ w.visits, v.Faithful) : w.repliesWritten ≤ w.replies := by
  unfold repliesWritten replies
  generalize w.visits = visits at h ⊢
  induction visits with
  | nil => exact Nat.le_refl 0
  | cons v visits ih =>
    have hv := (h v List.mem_cons_self).repliesIn_le
    have hrest := ih fun u hu => h u (List.mem_cons_of_mem v hu)
    rw [List.map_cons, List.sum_cons, List.countP_cons]
    omega

/-- A step by which no call is dispatched and no stop is given. -/
structure Quiet (w w' : Reception) : Prop where
  table : w'.table = w.table
  stop : w'.stop = w.stop
  calls : w'.calls = w.calls
  replies : w'.replies = w.replies
  withheld : w'.stats.withheld = w.stats.withheld
  faithful : ∀ v ∈ w'.visits, v.Faithful

theorem quiet_of_visits {w' : Reception} (hf : ∀ v ∈ w.visits, v.Faithful)
    (htable : w'.table = w.table) (hstop : w'.stop = w.stop) (hcalls : w'.calls = w.calls)
    (hvisits : w'.visits = w.visits) (hstats : w'.stats = w.stats) : Quiet w w' :=
  ⟨htable, hstop, hcalls, by rw [replies, hvisits, replies], by rw [hstats], by rwa [hvisits]⟩

theorem Quiet.refl (hf : ∀ v ∈ w.visits, v.Faithful) : Quiet w w := ⟨rfl, rfl, rfl, rfl, rfl, hf⟩

theorem isReplied_of_answer {v v' : Visit} (h : v'.answer? = v.answer?) :
    v'.isReplied = v.isReplied := by
  rw [Visit.isReplied, h, Visit.isReplied]

theorem replies_set_of_answer (hv : w.visits[n]? = some v) {v' : Visit}
    (ha : v'.answer? = v.answer?) : (w.visits.set n v').countP Visit.isReplied = w.replies := by
  have h := countP_set_add (p := Visit.isReplied) hv v'
  rw [isReplied_of_answer ha] at h
  exact Nat.add_right_cancel h

/-- A visit that keeps its answer changes without a call being dispatched. -/
theorem quiet_setVisit (hf : ∀ v ∈ w.visits, v.Faithful) (hv : w.visits[n]? = some v) {v' : Visit}
    (ha : v'.answer? = v.answer?) (hv' : v'.Faithful) : Quiet w (w.setVisit n v') where
  table := rfl
  stop := rfl
  calls := rfl
  replies := replies_set_of_answer hv ha
  withheld := rfl
  faithful u hu := by
    rcases List.mem_or_eq_of_mem_set hu with hu | rfl
    · exact hf u hu
    · exact hv'

theorem quiet_finish (hf : ∀ v ∈ w.visits, v.Faithful) (hv : w.visits[n]? = some v) {v' : Visit}
    (hv' : ({ v' with stage := .closed v.answer? } : Visit).Faithful) {stats : ServerStats}
    (hstats : stats.withheld = w.stats.withheld) : Quiet w (w.finish n v' v.answer? stats) where
  table := rfl
  stop := rfl
  calls := rfl
  replies := replies_set_of_answer hv rfl
  withheld := hstats
  faithful u hu := by
    rcases List.mem_or_eq_of_mem_set hu with hu | rfl
    · exact hf u hu
    · exact hv'

theorem withheld_counted (stats : ServerStats) (response : Response) :
    (Server.counted stats response).withheld =
      stats.withheld + if response = .withhold then 1 else 0 := by
  cases response <;> rfl

/-- To write a part of an answer dispatches no call. -/
theorem quiet_write (hf : ∀ v ∈ w.visits, v.Faithful) (n count : Nat) :
    Quiet w (w.write n count) := by
  cases hv : w.visits[n]? with
  | none =>
    simp only [write, onVisit, hv]
    exact .refl hf
  | some v =>
    have hfv := hf v (List.mem_of_getElem? hv)
    cases hs : v.stage with
    | reading | closed response =>
      rw [write_of_not_writing hv fun _ _ h => Stage.noConfusion (hs.symm.trans h)]
      exact .refl hf
    | writing response left =>
      simp only [Visit.Faithful, hs] at hfv
      obtain ⟨hleft, he⟩ := hfv
      have ha : v.answer? = some response := by simp only [Visit.answer?, hs]
      have he' : Server.encodeResponse response =
          .ok (v.written ++ left.take count ++ left.drop count) := by
        rw [List.append_assoc, List.take_append_drop, he]
      rw [write_of_writing hv hs, answer]
      split
      · rw [← ha]
        apply quiet_finish hf hv
        · rw [ha]
          exact .inr ⟨_, he'⟩
        · rw [withheld_counted, if_neg, Nat.add_zero]
          rintro rfl
          exact hleft (List.append_eq_nil_iff.mp (Except.ok.inj he).symm).2
      · next hrest => exact quiet_setVisit hf hv (by rw [ha]; rfl) ⟨hrest, he'⟩

theorem quiet_accept (hf : ∀ v ∈ w.visits, v.Faithful) : Quiet w w.accept := by
  unfold accept
  split
  · exact quiet_of_visits hf rfl rfl rfl rfl rfl
  · refine ⟨rfl, rfl, rfl, ?_, rfl, fun v hv => ?_⟩
    · simp only [replies, List.countP_append]
      rfl
    · rcases List.mem_append.mp hv with hv | hv
      · exact hf v hv
      · rw [List.mem_singleton.mp hv]
        rfl

theorem quiet_giveUp (hf : ∀ v ∈ w.visits, v.Faithful) :
    Quiet w { w with visits := w.visits.map Visit.giveUp } := by
  refine ⟨rfl, rfl, rfl, ?_, rfl, fun v hv => ?_⟩
  · simp only [replies, List.countP_map]
    rfl
  · obtain ⟨u, hu, rfl⟩ := List.mem_map.mp hv
    exact (hf u hu).giveUp

/-- The server reads on a connection without a call that is complete. -/
theorem read_cases (hf : ∀ v ∈ w.visits, v.Faithful) (n : Nat) :
    (∃ v r rest, w.visits[n]? = some v ∧ v.stage = .reading ∧
      CallReading.read v.arrived = .call r rest ∧ w.read n = w.dispatch n v r) ∨
    Quiet w (w.read n) := by
  have hquiet : Quiet w w := .refl hf
  cases hv : w.visits[n]? with
  | none =>
    simp only [read, onVisit, hv]
    exact .inr hquiet
  | some v =>
    have hfv := hf v (List.mem_of_getElem? hv)
    by_cases hs : v.stage = .reading
    · have ha : v.answer? = none := by simp only [Visit.answer?, hs]
      have hclosed : ({ v with stage := .closed v.answer? } : Visit).Faithful := hfv.giveUp
      have hfinish (stats : ServerStats) (hstats : stats.withheld = w.stats.withheld) :
          Quiet w (w.finish n v none stats) := by
        rw [← ha]
        exact quiet_finish hf hv hclosed hstats
      simp only [read, onVisit_of_some hv, ne_eq, hs, not_true_eq_false, if_false]
      cases hr : CallReading.read v.arrived with
      | call r rest => exact .inl ⟨v, r, rest, rfl, hs, hr, rfl⟩
      | refused fault => exact .inr (hfinish _ rfl)
      | nothing | part | unclosed =>
        right
        cases v.isEnded with
        | false => exact hquiet
        | true => exact hfinish _ rfl
    · simp only [read, onVisit_of_some hv, ne_eq, hs, not_false_eq_true, if_true]
      exact .inr hquiet

/-- A call is dispatched, somebody gives the stop, or nothing happens to the service table, its
answers and the stop. -/
theorem step_cases (hf : ∀ v ∈ w.visits, v.Faithful) (e : ReceptionEvent) :
    (∃ n v r rest, e = .read n ∧ w.visits[n]? = some v ∧ v.stage = .reading ∧
      CallReading.read v.arrived = .call r rest ∧ w.step e = w.dispatch n v r) ∨
    (∃ reason, e = .stop reason ∧ w.step e = { w with stop := w.stop.trigger reason }) ∨
    Quiet w (w.step e) := by
  have hquiet : Quiet w w := .refl hf
  have hon (n : Nat) (f : Visit → Reception)
      (hvisit : ∀ v, w.visits[n]? = some v → v.Faithful → Quiet w (f v)) :
      Quiet w (w.onVisit n f) := by
    cases hv : w.visits[n]? with
    | none =>
      simp only [onVisit, hv]
      exact hquiet
    | some v =>
      rw [onVisit_of_some hv]
      exact hvisit v hv (hf v (List.mem_of_getElem? hv))
  cases e with
  | read n =>
    rcases read_cases hf n with ⟨v, r, rest, h⟩ | h
    · exact .inl ⟨n, v, r, rest, rfl, h⟩
    · exact .inr (.inr h)
  | stop reason => exact .inr (.inl ⟨reason, rfl, rfl⟩)
  | accept => exact .inr (.inr (quiet_accept hf))
  | arrive n bytes =>
    refine .inr (.inr (hon n _ fun v hv hfv => ?_))
    exact quiet_setVisit hf hv (v.answer?_arrive bytes) (hfv.arrive bytes)
  | close n =>
    refine .inr (.inr (hon n _ fun v hv hfv => ?_))
    exact quiet_setVisit hf hv v.answer?_close hfv.close
  | write n count => exact .inr (.inr (quiet_write hf n count))
  | reset n =>
    refine .inr (.inr (hon n _ fun v hv hfv => ?_))
    split
    · exact quiet_finish hf hv hfv.giveUp rfl
    · exact hquiet
  | pass millis => exact .inr (.inr (quiet_of_visits hf rfl rfl rfl rfl rfl))
  | shutdown =>
    simp only [step, shutdown]
    split <;> exact .inr (.inr (quiet_of_visits hf rfl rfl rfl rfl rfl))
  | giveUp =>
    simp only [step]
    split
    · exact .inr (.inr (quiet_giveUp hf))
    · exact .inr (.inr hquiet)

/-- A call that is complete is dispatched, whether or not the stop has been given. -/
theorem read_of_call {r : Request} {rest : Pieces} (hv : w.visits[n]? = some v)
    (hs : v.stage = .reading) (hr : CallReading.read v.arrived = .call r rest) :
    w.read n = w.dispatch n v r := by
  simp only [read, onVisit_of_some hv, ne_eq, hs, not_true_eq_false, if_false, hr,
    CallReading.isOpen, Bool.false_and, Bool.false_eq_true, CallReading.atEnd]

/-- What a dispatched call does. -/
theorem dispatch_spec (n : Nat) (hs : v.stage = .reading) (r : Request) :
    let done := w.table.dispatch w.stop r
    let w' := w.dispatch n v r
    w'.table = done.table ∧ w'.stop = done.stop ∧ w'.calls = w.calls ++ [r] ∧
      w'.stats.withheld = w.stats.withheld + (if done.response = .withhold then 1 else 0) ∧
      ∃ v', w'.visits = w.visits.set n v' ∧ v'.answer? = some done.response ∧
        (v.Faithful → v'.Faithful) ∧
        (done.response = .withhold → v' = { v with stage := .closed (some .withhold) }) := by
  intro done w'
  have hwritten (hf : v.Faithful) : v.written = [] := by simpa only [Visit.Faithful, hs] using hf
  cases he : Server.encodeResponse done.response with
  | error fault =>
    have hne : done.response ≠ .withhold := by
      intro hd
      rw [hd] at he
      cases he
    have hw' : w' = (w.take r).fail n v (some done.response) := by
      simp only [w', dispatch, done, he]
    rw [hw', if_neg hne]
    exact ⟨rfl, rfl, rfl, rfl, _, rfl, rfl, fun hf => .inl (hwritten hf), fun hd => absurd hd hne⟩
  | ok bytes =>
    have hw' : w' = (w.take r).answer n v done.response bytes := by
      simp only [w', dispatch, done, he]
    rw [hw', answer]
    split
    · refine ⟨rfl, rfl, rfl, withheld_counted _ _, _, rfl, rfl, fun hf => .inl (hwritten hf), ?_⟩
      intro hd
      rw [hd]
    · next hbytes =>
      have hne : done.response ≠ .withhold := by
        intro hd
        rw [hd] at he
        exact hbytes (Except.ok.inj he).symm
      rw [if_neg hne]
      refine ⟨rfl, rfl, rfl, rfl, _, rfl, rfl, fun hf => ⟨hbytes, ?_⟩, fun hd => absurd hd hne⟩
      rw [hwritten hf, List.nil_append]
      exact he

/-- No visit has come or gone, none other than this one has changed, and nothing has happened to the
deadline. -/
structure Only (n : Nat) (w w' : Reception) : Prop where
  visits : w'.visits = w.visits ∨ ∃ v, w'.visits = w.visits.set n v
  connections : w'.stats.connections = w.stats.connections
  drain : w'.drain = w.drain
  deadline : w'.deadline = w.deadline

theorem Only.refl (n : Nat) (w : Reception) : Only n w w := ⟨.inl rfl, rfl, rfl, rfl⟩

theorem Only.getElem?_of_ne {m : Nat} {w' : Reception} (h : Only m w w') (hn : m ≠ n) :
    w'.visits[n]? = w.visits[n]? := by
  rcases h.visits with h | ⟨u, h⟩
  · rw [h]
  · rw [h, List.getElem?_set_ne hn]

theorem Only.length {w' : Reception} (h : Only n w w') : w'.visits.length = w.visits.length := by
  rcases h.visits with h | ⟨u, h⟩
  · rw [h]
  · rw [h, List.length_set]

theorem only_setVisit (n : Nat) (v : Visit) : Only n w (w.setVisit n v) :=
  ⟨.inr ⟨v, rfl⟩, rfl, rfl, rfl⟩

theorem only_fail (n : Nat) (v : Visit) (response : Option Response) :
    Only n w (w.fail n v response) := ⟨.inr ⟨_, rfl⟩, rfl, rfl, rfl⟩

theorem only_answer (n : Nat) (v : Visit) (response : Response) (left : Bytes) :
    Only n w (w.answer n v response left) := by
  unfold answer
  split
  · exact ⟨.inr ⟨_, rfl⟩, by cases response <;> rfl, rfl, rfl⟩
  · exact only_setVisit n _

theorem only_dispatch (n : Nat) (v : Visit) (r : Request) : Only n w (w.dispatch n v r) := by
  unfold dispatch
  dsimp only
  split
  · next bytes _ =>
    have h : Only n (w.take r) ((w.take r).answer n v (w.table.dispatch w.stop r).response bytes) :=
      only_answer n v _ bytes
    exact ⟨h.visits, h.connections, h.drain, h.deadline⟩
  · exact ⟨.inr ⟨_, rfl⟩, rfl, rfl, rfl⟩

theorem only_onVisit {f : Visit → Reception} (h : ∀ v, Only n w (f v)) :
    Only n w (w.onVisit n f) := by
  unfold onVisit
  split
  · exact h _
  · exact .refl n w

theorem only_read (n : Nat) : Only n w (w.read n) := by
  refine only_onVisit fun v => ?_
  dsimp only
  split
  · exact .refl n w
  · split
    · exact .refl n w
    · split
      · exact only_dispatch n v _
      · exact ⟨.inr ⟨_, rfl⟩, rfl, rfl, rfl⟩
      · exact only_fail n v none

theorem only_write (n count : Nat) : Only n w (w.write n count) := by
  refine only_onVisit fun v => ?_
  split
  · exact only_answer n _ _ _
  · exact .refl n w
  · exact .refl n w

/-- The visit that an event is about. -/
def visitOf : ReceptionEvent → Option Nat
  | .arrive n _ | .close n | .read n | .write n _ | .reset n => some n
  | .accept | .stop _ | .shutdown | .giveUp | .pass _ => none

/-- A step on one visit leaves all the others alone, and accepts none. -/
theorem only_step {e : ReceptionEvent} (h : visitOf e = some n) : Only n w (w.step e) := by
  cases e with
  | accept | stop _ | shutdown | giveUp | pass _ => cases h
  | arrive m bytes =>
    cases h
    exact only_onVisit fun _ => only_setVisit n _
  | close m =>
    cases h
    exact only_onVisit fun _ => only_setVisit n _
  | read m =>
    cases h
    exact only_read n
  | write m count =>
    cases h
    exact only_write n count
  | reset m =>
    cases h
    refine only_onVisit fun v => ?_
    split
    · exact only_fail n v _
    · exact .refl n w

/-- Nothing happens any more on a connection that is closed. -/
theorem step_of_closed (hv : w.visits[n]? = some v) (ho : v.isOpen = false) (count : Nat) :
    w.step (.read n) = w ∧ w.step (.write n count) = w ∧ w.step (.reset n) = w := by
  refine ⟨?_, ?_, ?_⟩
  · have hs : v.stage ≠ .reading := by
      intro hs
      simp [Visit.isOpen, hs] at ho
    simp only [step, read, onVisit_of_some hv, if_pos hs]
  · apply write_of_not_writing hv
    intro r left hs
    simp [Visit.isOpen, hs] at ho
  · simp only [step, onVisit_of_some hv, ho, Bool.false_eq_true, if_false]

/-- What has become of a visit with an event. One that is closed stays as it is, and one that is
open is closed only by what happens on it, or at the deadline. -/
structure Becomes (w : Reception) (e : ReceptionEvent) (n : Nat) (v v' : Visit) : Prop where
  visit : (w.step e).visits[n]? = some v'
  closed : v.isOpen = false → v' = v
  isOpen : v.isOpen = true → v'.isOpen = true ∨ e = .read n ∨ (∃ count, e = .write n count) ∨
    e = .reset n ∨ e = .giveUp ∧ w.isLate = true

variable {e : ReceptionEvent}

theorem becomes_same (hv : w.visits[n]? = some v)
    (h : (w.step e).visits[n]? = w.visits[n]?) : w.Becomes e n v v :=
  ⟨h.trans hv, fun _ => rfl, .inl⟩

theorem exists_becomes_of_own (hv : w.visits[n]? = some v) (he : visitOf e = some n) :
    ∃ v', w.Becomes e n v v' := by
  have hn : n < w.visits.length := (List.getElem?_eq_some_iff.mp hv).1
  obtain ⟨v', hv'⟩ : ∃ v', (w.step e).visits[n]? = some v' :=
    ⟨_, List.getElem?_eq_getElem ((only_step (w := w) he).length ▸ hn)⟩
  have hsame (h : w.step e = w) : v' = v := by
    rw [h, hv] at hv'
    exact (Option.some.inj hv').symm
  cases e with
  | accept | stop _ | shutdown | giveUp | pass _ => cases he
  | arrive m bytes =>
    cases he
    refine ⟨v.arrive bytes, ?_, fun ho => Visit.arrive_of_closed ho bytes, fun ho => .inl ?_⟩
    · rw [step, onVisit_of_some hv, getElem?_setVisit_self hn]
    · rw [Visit.isOpen_arrive, ho]
  | close m =>
    cases he
    refine ⟨v.close, ?_, Visit.close_of_closed, fun ho => .inl ?_⟩
    · rw [step, onVisit_of_some hv, getElem?_setVisit_self hn]
    · rw [Visit.isOpen_close, ho]
  | read m =>
    cases he
    exact ⟨v', hv', fun ho => hsame (step_of_closed hv ho 0).1, fun _ => .inr (.inl rfl)⟩
  | write m count =>
    cases he
    exact ⟨v', hv', fun ho => hsame (step_of_closed hv ho count).2.1,
      fun _ => .inr (.inr (.inl ⟨count, rfl⟩))⟩
  | reset m =>
    cases he
    exact ⟨v', hv', fun ho => hsame (step_of_closed hv ho 0).2.2,
      fun _ => .inr (.inr (.inr (.inl rfl)))⟩

theorem exists_becomes_of_none (hv : w.visits[n]? = some v) (he : visitOf e = none) :
    ∃ v', w.Becomes e n v v' := by
  cases e with
  | arrive _ _ | close _ | read _ | write _ _ | reset _ => cases he
  | accept =>
    refine ⟨v, becomes_same hv ?_⟩
    simp only [step, accept]
    split
    · rfl
    · exact List.getElem?_append_left (List.getElem?_eq_some_iff.mp hv).1
  | stop reason | pass millis => exact ⟨v, becomes_same hv rfl⟩
  | shutdown =>
    refine ⟨v, becomes_same hv ?_⟩
    simp only [step, shutdown]
    split <;> rfl
  | giveUp =>
    by_cases hl : w.isLate = true
    · refine ⟨v.giveUp, ?_, Visit.giveUp_of_closed, fun _ => .inr (.inr (.inr (.inr ⟨rfl, hl⟩)))⟩
      simp only [step, hl, if_true, List.getElem?_map, hv, Option.map_some]
    · exact ⟨v, becomes_same hv (by simp only [step, hl, Bool.false_eq_true, if_false])⟩

/-- No event takes a visit away. -/
theorem exists_becomes (hv : w.visits[n]? = some v) (e : ReceptionEvent) :
    ∃ v', w.Becomes e n v v' := by
  cases he : visitOf e with
  | none => exact exists_becomes_of_none hv he
  | some m =>
    by_cases hm : m = n
    · exact exists_becomes_of_own hv (he.trans (congrArg some hm))
    · exact ⟨v, becomes_same hv ((only_step he).getElem?_of_ne hm)⟩

/-- Nobody is accepted any more after the stop. -/
theorem length_step_of_stopped (h : w.stop.isTriggered = true) (e : ReceptionEvent) :
    (w.step e).visits.length = w.visits.length ∧
      (w.step e).stats.connections = w.stats.connections := by
  have honly {n : Nat} (ho : Only n w (w.step e)) :
      (w.step e).visits.length = w.visits.length ∧
        (w.step e).stats.connections = w.stats.connections := ⟨ho.length, ho.connections⟩
  cases e with
  | accept =>
    simp only [step, accept, h, if_true, and_self]
  | arrive n _ | close n | read n | write n _ | reset n => exact honly (n := n) (only_step rfl)
  | stop reason | pass millis => exact ⟨rfl, rfl⟩
  | shutdown =>
    simp only [step, shutdown]
    split <;> exact ⟨rfl, rfl⟩
  | giveUp =>
    simp only [step]
    split
    · exact ⟨List.length_map _, rfl⟩
    · exact ⟨rfl, rfl⟩

/-- The deadline is set once the stop has been given. -/
theorem deadline_step (w : Reception) (e : ReceptionEvent) :
    (w.step e).drain = w.drain ∧
      ((w.step e).deadline = w.deadline ∨ e = .shutdown ∧ w.stop.isTriggered = true ∧
        (w.step e).deadline = some (w.now + w.drain)) := by
  have honly {n : Nat} (ho : Only n w (w.step e)) : (w.step e).drain = w.drain ∧
      ((w.step e).deadline = w.deadline ∨ e = .shutdown ∧ w.stop.isTriggered = true ∧
        (w.step e).deadline = some (w.now + w.drain)) := ⟨ho.drain, .inl ho.deadline⟩
  cases e with
  | accept =>
    simp only [step, accept]
    split <;> exact ⟨rfl, .inl rfl⟩
  | arrive n _ | close n | read n | write n _ | reset n => exact honly (n := n) (only_step rfl)
  | stop reason | pass millis => exact ⟨rfl, .inl rfl⟩
  | shutdown =>
    simp only [step, shutdown]
    split
    · next h => exact ⟨rfl, .inr ⟨trivial, h.1, rfl⟩⟩
    · exact ⟨rfl, .inl rfl⟩
  | giveUp =>
    simp only [step]
    split <;> exact ⟨rfl, .inl rfl⟩

end Reception
end ScriptedPeer
