import ScriptedPeer.Proofs.Serving.Accounts
import ScriptedPeer.Proofs.Serving.ReplyLimit

/-!
# The totals of a server

Every connection is counted, and contributes to one other count at most. So when all connections are
closed, and none was given up, the counts add up, but for those that were closed before their first
byte and those whose handler broke down. What the counts say can be seen on the connections: how
many replies were written, how many refusals, and how many answers were withheld.
-/

namespace ScriptedPeer

open Wire

/-- The connection is closed, and nothing has come of it: not a byte has arrived. -/
def Visit.isSilent (v : Visit) : Bool := v.stage = .closed none && v.arrived.flatten.isEmpty

/-- Unless the connection broke or was given up, it came to nothing because nothing arrived. -/
theorem Visit.CameTo.isSilent_eq {broken : List Method} {v : Visit} {o : Option VisitOutcome}
    (h : v.CameTo broken False False o) : v.isSilent = (o == some .silent) := by
  have hread (hne : (CallReading.read v.arrived).atEnd ≠ .ok none) :
      v.arrived.flatten.isEmpty = false := by
    rw [← Bool.not_eq_true, List.isEmpty_iff]
    exact fun hnothing => hne (CallReading.atEnd_of_nothing hnothing)
  cases h with
  | ongoing hon =>
    have hs : v.stage ≠ .closed none := by
      intro hs
      have ho := hon.isOpen
      simp [Visit.isOpen, hs] at ho
    simp [isSilent, hs]
  | answered hs _ _ | unwritten hs _ _ _ => simp [isSilent, hs]
  | unread _ hr _ =>
    rw [isSilent, hread (by simp [hr]), Bool.and_false]
    rfl
  | crashed _ hr _ _ =>
    rw [isSilent, hread (by simp [hr, CallReading.atEnd]), Bool.and_false]
    rfl
  | silent hs hr _ _ => simp [isSilent, hs, hr]
  | lost h _ _ | abandoned h _ _ => exact h.elim

namespace Reception

variable {w : Reception} {broken : List Method} {isReset : Nat → Prop} {isGivenUp : Prop}
  {ledger : List (Option VisitOutcome)} {n : Nat} {v : Visit}

/-- What can be seen of each visit can be counted in the ledger as well. -/
theorem Kept.countP_eq (h : w.Kept broken isReset isGivenUp ledger) {p : Visit → Bool}
    {q : Option VisitOutcome → Bool}
    (hpq : ∀ (n : Nat) (v : Visit) (o : Option VisitOutcome),
      v.CameTo broken (isReset n) isGivenUp o → p v = q o) :
    w.visits.countP p = ledger.countP q := by
  have hmap : w.visits.map p = ledger.map q := by
    apply List.ext_getElem?
    intro n
    rw [List.getElem?_map, List.getElem?_map]
    cases hv : w.visits[n]? with
    | none =>
      have hle := List.getElem?_eq_none_iff.mp hv
      rw [← h.length] at hle
      rw [List.getElem?_eq_none hle]
      rfl
    | some v =>
      obtain ⟨o, hledger, hcame⟩ := h.came n v hv
      rw [hledger, Option.map_some, Option.map_some, hpq n v o hcame]
  have hcount {α : Type} (p : α → Bool) (l : List α) : l.countP p = (l.map p).countP id := by
    rw [List.countP_map]
    rfl
  rw [hcount p, hmap, ← hcount q]

/-- No visit has an outcome that none can have come to. -/
theorem Kept.count_eq_zero (h : w.Kept broken isReset isGivenUp ledger)
    {o : Option VisitOutcome}
    (hnot : ∀ (n : Nat) (v : Visit), w.visits[n]? = some v →
      ¬v.CameTo broken (isReset n) isGivenUp o) : ledger.count o = 0 := by
  rw [List.count_eq_zero]
  intro ho
  obtain ⟨n, hn⟩ := List.mem_iff_getElem?.mp ho
  have hlt := (List.getElem?_eq_some_iff.mp hn).1
  rw [h.length] at hlt
  obtain ⟨o', ho', hcame⟩ := h.came n _ (List.getElem?_eq_getElem hlt)
  rw [hn, Option.some.injEq] at ho'
  subst ho'
  exact hnot n _ (List.getElem?_eq_getElem hlt) hcame

theorem Kept.count_none (h : w.Kept broken isReset isGivenUp ledger)
    (hclosed : ∀ v ∈ w.visits, v.isOpen = false) : ledger.count none = 0 :=
  h.count_eq_zero fun _ v hv hcame => by
    have ho := hclosed v (List.mem_of_getElem? hv)
    rw [hcame.isOpen] at ho
    cases ho

theorem Kept.count_abandoned (h : w.Kept broken isReset isGivenUp ledger) (hg : ¬isGivenUp) :
    ledger.count (some .abandoned) = 0 :=
  h.count_eq_zero fun _ _ _ hcame => by
    cases hcame with
    | abandoned hgiven _ _ => exact hg hgiven

theorem Kept.count_crashed (h : w.Kept broken isReset isGivenUp ledger) (hb : broken = []) :
    ledger.count (some .crashed) = 0 :=
  h.count_eq_zero fun _ _ _ hcame => by
    cases hcame with
    | crashed _ _ hm _ =>
      rw [hb] at hm
      cases hm

/-- Where no connection breaks and none is given up, the silent ones can be told apart. -/
theorem Kept.count_silent (h : w.Kept broken isReset isGivenUp ledger) (hg : ¬isGivenUp)
    (hr : ∀ n, ¬isReset n) : ledger.count (some .silent) = w.visits.countP Visit.isSilent :=
  (h.countP_eq fun n _ _ hcame => (hcame.mono (hr n) hg).isSilent_eq).symm

/-- A visit without a call that can be read is counted as failed. -/
theorem Kept.isFailed_of_unread (h : w.Kept broken isReset isGivenUp ledger)
    (hv : w.visits[n]? = some v) (ho : v.isOpen = false) (hg : ¬isGivenUp) {fault : CallFault}
    (hr : (CallReading.read v.arrived).atEnd = .error fault) :
    ∃ o : VisitOutcome, ledger[n]? = some (some o) ∧ o.isFailed = true := by
  obtain ⟨o, hledger, hcame⟩ := h.came n v hv
  rw [hledger]
  have hcall (hc : v.IsCalled) : False := by
    obtain ⟨r, rest, hread⟩ := hc
    rw [hread] at hr
    cases hr
  cases hcame with
  | ongoing hon =>
    rw [hon.isOpen] at ho
    cases ho
  | answered _ hc _ => exact (hcall hc).elim
  | crashed _ hread _ _ => exact (hcall ⟨_, _, hread⟩).elim
  | silent _ hnothing _ _ =>
    rw [CallReading.atEnd_of_nothing hnothing] at hr
    cases hr
  | abandoned hgiven _ _ => exact absurd hgiven hg
  | unwritten _ _ _ _ => exact ⟨.unwritten, rfl, rfl⟩
  | unread _ _ _ => exact ⟨.unread, rfl, rfl⟩
  | lost _ _ _ => exact ⟨.lost, rfl, rfl⟩

/-- So is one whose answer is too large, and nothing is written on it. -/
theorem Kept.unwritten_of_large (h : w.Kept broken isReset isGivenUp ledger)
    (hv : w.visits[n]? = some v) {response : Response} (ha : v.answer? = some response)
    {fault : Wire.Fault} (he : Server.encodeResponse response = .error fault) :
    ledger[n]? = some (some .unwritten) ∧ v.written = [] := by
  obtain ⟨o, hledger, hcame⟩ := h.came n v hv
  rw [hledger]
  have hunfinished (hu : v.Unfinished) : False := by
    simp only [Visit.Unfinished, ha] at hu
    obtain ⟨left, -, hok⟩ := hu
    rw [hok] at he
    cases he
  cases hcame with
  | unwritten _ _ _ hw => exact ⟨rfl, hw⟩
  | ongoing hon => exact (hunfinished hon.unfinished).elim
  | lost _ _ hu | abandoned _ _ hu => exact (hunfinished hu).elim
  | unread hs _ _ | silent hs _ _ _ | crashed hs _ _ _ =>
    simp only [Visit.answer?, hs] at ha
    cases ha
  | answered hs _ hw =>
    simp only [Visit.answer?, hs, Option.some.injEq] at ha
    rw [ha, he] at hw
    cases hw

/-- The counts at every moment are those of what the visits have come to, each of which has come to
one outcome at most. Replies and refusals are counted where they were written, and withheld answers
where they were given; a call that cannot be read is counted as failed, and so is an answer that is
too large, of which nothing is written. A handler that breaks down is not counted, and neither is a
connection that is given up. So when all connections are closed, and none was given up, nothing is
missing but those that broke down and those that were closed before their first byte. -/
theorem accounts_for_visits (table : ServiceTable) (stop : StopSignal) (now drain : Nat)
    (broken : List Method) (schedule : Nat → ReceptionEvent) :
    let w := ({ table, stop, now, drain } : Reception).serve broken schedule
    ∀ k,
      let stats := (w k).stats
      let visits := (w k).visits
      let isReset (n : Nat) := ∃ i < k, schedule i = .reset n
      let isGivenUp := ∃ i < k, schedule i = .giveUp ∧ (w i).isLate = true
      stats.replied = visits.countP (Visit.wrote ServerFrame.isReply) ∧
      stats.unimplemented = visits.countP (Visit.wrote (!·.isReply)) ∧
      stats.withheld = visits.countP (·.answer? = some .withhold) ∧
      (∃ ledger : List (Option VisitOutcome),
        (w k).Kept broken isReset isGivenUp ledger ∧
        stats.connections = stats.replied + stats.withheld + stats.unimplemented + stats.failed +
          ledger.count (some .silent) + ledger.count (some .crashed) +
          ledger.count (some .abandoned) + ledger.count none ∧
        ((∀ v ∈ visits, v.isOpen = false) → ¬isGivenUp →
          stats.connections = stats.replied + stats.withheld + stats.unimplemented +
            stats.failed + ledger.count (some .silent) + ledger.count (some .crashed)) ∧
        (broken = [] → ledger.count (some .crashed) = 0) ∧
        (¬isGivenUp → (∀ n, ¬isReset n) →
          ledger.count (some .silent) = visits.countP Visit.isSilent) ∧
        ∀ (n : Nat) (v : Visit), visits[n]? = some v →
          (v.isOpen = false → ¬isGivenUp →
            ∀ fault, (CallReading.read v.arrived).atEnd = .error fault →
              ∃ o : VisitOutcome, ledger[n]? = some (some o) ∧ o.isFailed = true) ∧
          ∀ r fault, v.answer? = some (.reply r) →
            Frame.encode Layout.serverFrame (.reply r) = .error fault →
              ledger[n]? = some (some .unwritten) ∧ v.written = []) ∧
      (∀ (n : Nat) (v : Visit), schedule k = .read n → visits[n]? = some v →
        v.breaks broken = true →
        (w (k + 1)).stats = stats ∧
        (w (k + 1)).visits[n]? = some { v with stage := .closed none }) ∧
      (schedule k = .giveUp → (w (k + 1)).stats = stats) := by
  intro w k stats visits isReset isGivenUp
  obtain ⟨ledger, h⟩ : ∃ ledger, (w k).Kept broken isReset isGivenUp ledger :=
    exists_kept_run rfl rfl broken schedule k
  have hnext : w (k + 1) = (w k).stepAmid broken (schedule k) := serve_succ _ _ _ _
  have hstats : stats = tally ledger := h.stats
  have htotal : stats.connections = stats.replied + stats.withheld + stats.unimplemented +
      stats.failed + ledger.count (some .silent) + ledger.count (some .crashed) +
      ledger.count (some .abandoned) + ledger.count none := by
    rw [hstats]
    exact connections_tally ledger
  refine ⟨?_, ?_, ?_, ⟨ledger, h, htotal, ?_, h.count_crashed, h.count_silent, ?_⟩, ?_, ?_⟩
  · rw [hstats]
    exact (h.countP_eq fun _ _ _ hcame => hcame.wrote_reply).symm
  · rw [hstats]
    exact (h.countP_eq fun _ _ _ hcame => hcame.wrote_unimplemented).symm
  · rw [hstats]
    exact (h.countP_eq fun _ _ _ hcame => hcame.answer?_eq_withhold).symm
  · intro hclosed hg
    rw [htotal, h.count_none hclosed, h.count_abandoned hg, Nat.add_zero]
  · intro n v hv
    exact ⟨fun ho hg fault hr => h.isFailed_of_unread hv ho hg hr,
      fun r fault ha he => h.unwritten_of_large hv ha he⟩
  · intro n v he hv hb
    have hn : n < (w k).visits.length := (List.getElem?_eq_some_iff.mp hv).1
    have hstep : w (k + 1) = (w k).finish n v none (w k).stats := by
      rw [hnext, he, stepAmid_of_breaks hv hb]
    rw [hstep]
    exact ⟨rfl, getElem?_finish_self hn _ _ _⟩
  · intro he
    rw [hnext, he]
    simp only [stepAmid, step]
    split <;> rfl

/-- The bytes of a Greet. -/
def greetCall : Bytes :=
  [0, 0, 0, 31, 1, 0, 0, 0, 1, 0, 0, 0, 0, 0, 0, 0, 97, 1, 0, 0, 0, 0, 0, 0, 0, 97,
    1, 0, 0, 0, 0, 0, 0, 0, 97]

/-- Of four visitors one leaves at once, one is answered, one leaves within a header, and one makes
a call that nobody can handle without breaking down. -/
def fourVisitors : Nat → ReceptionEvent
  | 0 | 1 | 2 | 3 => .accept
  | 4 => .close 0
  | 5 => .arrive 1 heartbeatCall
  | 6 => .arrive 2 [0, 0]
  | 7 => .arrive 3 greetCall
  | 8 => .read 1
  | 9 => .close 2
  | 10 => .read 3
  | 11 => .read 2
  | 12 => .read 0
  | 13 => .write 1 100
  | _ => .pass 1

/-- Each of them is counted once, and in what way. -/
theorem fourVisitors_totals :
    let w := (opened {} ⟨"me", "me", ⟨"host", 1⟩, 0⟩ 0).serve [.greet] fourVisitors
    (∀ v ∈ (w 14).visits, v.isOpen = false) ∧
      (w 14).stats = { connections := 4, replied := 1, failed := 1 } ∧
      (w 14).visits.countP (Visit.wrote ServerFrame.isReply) = 1 ∧
      (w 11).stats = (w 10).stats ∧
      ∃ ledger : List (Option VisitOutcome),
        ledger.count (some .silent) = 1 ∧ ledger.count (some .crashed) = 1 ∧
        ∃ o : VisitOutcome, ledger[2]? = some (some o) ∧ o.isFailed = true := by
  intro w
  have hclosed : ∀ v ∈ (w 14).visits, v.isOpen = false := by decide +kernel
  have hstats : (w 14).stats = { connections := 4, replied := 1, failed := 1 } := by
    decide +kernel
  have hreset : ∀ n, ¬∃ i < 14, fourVisitors i = .reset n := by
    rintro n ⟨i, -, hi⟩
    unfold fourVisitors at hi
    split at hi <;> cases hi
  have hgiven : ¬∃ i < 14, fourVisitors i = .giveUp ∧ (w i).isLate = true := by
    rintro ⟨i, -, hi, -⟩
    unfold fourVisitors at hi
    split at hi <;> cases hi
  obtain ⟨-, -, -, -, hcrash, -⟩ := accounts_for_visits
    (heartbeatTable {} ⟨"me", "me", ⟨"host", 1⟩, 0⟩) {} 0 _ [.greet] fourVisitors 10
  obtain ⟨hreplied, -, -, ⟨ledger, -, -, htotal, -, hsilent, hvisit⟩, -⟩ := accounts_for_visits
    (heartbeatTable {} ⟨"me", "me", ⟨"host", 1⟩, 0⟩) {} 0 _ [.greet] fourVisitors 14
  have hone : ledger.count (some .silent) = 1 := by
    rw [hsilent hgiven hreset]
    decide +kernel
  refine ⟨hclosed, hstats, ?_, ?_, ledger, hone, ?_, ?_⟩
  · exact hreplied.symm.trans (congrArg ServerStats.replied hstats)
  · exact (hcrash 3 { arrived := [greetCall] } rfl (by decide +kernel) (by decide +kernel)).1
  · have hsum : (w 14).stats.connections = (w 14).stats.replied + (w 14).stats.withheld +
        (w 14).stats.unimplemented + (w 14).stats.failed + ledger.count (some .silent) +
        ledger.count (some .crashed) := htotal hclosed hgiven
    rw [hstats, hone] at hsum
    -- Three of the four are known, so the fourth is the one that broke down.
    change 4 = 1 + 0 + 0 + 1 + 1 + ledger.count (some .crashed) at hsum
    omega
  · exact (hvisit 2 { arrived := [[0, 0]], isEnded := true, stage := .closed none }
      (by decide +kernel)).1 rfl hgiven _ rfl

end Reception
end ScriptedPeer
