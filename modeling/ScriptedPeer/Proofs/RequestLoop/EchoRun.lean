import ScriptedPeer.Proofs.RequestLoop.Echo

/-!
# Runs of the echoing scenario

However calls and turns follow each other, the echoing loop has sent one Tell for every n-th that
was received, or has the triggers to do so. Until the stop it goes on, and with turns again and again
it comes to send for each trigger.
-/

namespace ScriptedPeer.ServedWorld

variable {period received : Nat} {p : Profile} {script : CallScript} {w : ServedWorld}
  {schedule : Nat → ServedHappening}

theorem echoing_run (h : w.Echoing period p script 0) (schedule : Nat → ServedHappening) (k : Nat) :
    (w.run script schedule k).Echoing period p script (tellsBefore schedule k) := by
  induction k with
  | zero => exact h
  | succ k ih => exact echoing_step ih (schedule k)

/-- The loop does not give the stop itself. -/
theorem stop_turn (h : w.Echoing period p script received) :
    (w.world.turn script).stop = w.world.stop := by
  rcases turn_cases h with ⟨hw, -⟩ | ⟨-, -, hw⟩ | ⟨-, -, -, hw⟩ | ⟨-, acknowledged, hw⟩
  · rw [hw]
  · rw [hw]
  · rw [hw]
    rfl
  · rw [hw]

theorem stop_run (h : w.Echoing period p script 0) (hu : Undisturbed fun k => clock (schedule k))
    (k : Nat) : (w.run script schedule k).world.stop = w.world.stop := by
  induction k with
  | zero => rfl
  | succ k ih =>
    have hk := echoing_run h schedule k
    rw [← ih, run_succ]
    cases he : schedule k with
    | call r => exact stop_call hk r
    | pass millis => rfl
    | turn => exact stop_turn hk
    | stop reason => exact absurd (congrArg clock he) (hu k reason)

/-- None of the calls breaks the loop. -/
def Unbroken (script : CallScript) : Prop := ∀ i, script.reaction i ≠ .crashes

/-- Until the stop the loop goes on, whatever its calls come to. -/
theorem isOver_step (h : w.Echoing period p script received) (hc : Unbroken script)
    (ho : w.world.stop.isTriggered = false → w.world.loop.isOver = false) (e : ServedHappening)
    (hs : (w.step script e).world.stop.isTriggered = false) :
    (w.step script e).world.loop.isOver = false := by
  cases e with
  | call r =>
    rw [step, stop_call h r] at hs
    exact ho hs
  | pass millis => exact ho hs
  | stop reason =>
    rw [step, LoopWorld.step, StopSignal.isTriggered_trigger] at hs
    cases hs
  | turn =>
    have hs₀ : w.world.stop.isTriggered = false := by
      rw [← stop_turn h]
      exact hs
    simp only [step]
    rcases turn_cases h with ⟨hw, -⟩ | ⟨-, hs₁, -⟩ | ⟨-, -, -, hw⟩ | ⟨-, acknowledged, hw⟩
    · rw [hw]
      exact ho hs₀
    · rw [hs₀] at hs₁
      cases hs₁
    · rw [hw]
      rcases (script.reaction w.world.sent.length).phase_cases w.world.now with
        ⟨hr, -⟩ | ⟨back, hr⟩
      · exact absurd hr (hc _)
      · simp [RequestLoop.isOver, hr]
    · rw [hw]
      rfl

theorem isOver_run (h : w.Echoing period p script 0) (hc : Unbroken script)
    (ho : w.world.loop.isOver = false) (k : Nat)
    (hs : (w.run script schedule k).world.stop.isTriggered = false) :
    (w.run script schedule k).world.loop.isOver = false := by
  induction k with
  | zero => exact ho
  | succ k ih => exact isOver_step (echoing_run h schedule k) hc ih (schedule k) hs

/-- All calls come back. -/
def Returning (script : CallScript) : Prop := ∀ i, script.reaction i ≠ .hangs

theorem phase_step_ne_never (h : w.Echoing period p script received) (hr : Returning script)
    (hn : w.world.loop.phase ≠ .calling .never) (e : ServedHappening) :
    (w.step script e).world.loop.phase ≠ .calling .never := by
  cases e with
  | call _ | pass _ | stop _ => exact hn
  | turn =>
    simp only [step]
    rcases turn_cases h with ⟨hw, -⟩ | ⟨-, -, hw⟩ | ⟨-, -, -, hw⟩ | ⟨-, acknowledged, hw⟩
    · rwa [hw]
    · rw [hw]
      simp [RequestLoop.finish]
    · rw [hw]
      have hi := hr w.world.sent.length
      cases hreaction : script.reaction w.world.sent.length with
      | hangs => exact absurd hreaction hi
      | atOnce _ | after _ _ | crashes =>
        simp [hreaction, Reaction.phase]
    · rw [hw]
      simp

/-- How much is left to be done until `target` requests have been sent. -/
def left (target : Nat) (w : LoopWorld) : Nat := 2 * (target - w.sent.length) + w.loop.inFlight

theorem left_send_lt {target : Nat} (ht : w.world.sent.length < target) :
    left target (w.world.send script) < left target w.world := by
  have h := (w.world.send script).loop.inFlight_le_one
  simp only [left, LoopWorld.length_sent_send]
  omega

/-- A happening leaves the loop as it is, or less is left. -/
theorem left_step (h : w.Echoing period p script received)
    (hs : w.world.stop.isTriggered = false) {target : Nat} (ht : w.world.sent.length < target)
    (e : ServedHappening) :
    (w.step script e).world.loop = w.world.loop ∧ (w.step script e).world.sent = w.world.sent ∨
      left target (w.step script e).world < left target w.world := by
  cases e with
  | call _ | pass _ | stop _ => exact .inl ⟨rfl, rfl⟩
  | turn =>
    simp only [step]
    rcases turn_cases h with ⟨hw, -⟩ | ⟨-, hs', -⟩ | ⟨-, -, -, hw⟩ | ⟨hc, acknowledged, hw⟩
    · rw [hw]
      exact .inl ⟨rfl, rfl⟩
    · rw [hs] at hs'
      cases hs'
    · rw [hw]
      exact .inr (left_send_lt ht)
    · rw [hw]
      right
      simp only [left, RequestLoop.inFlight_of_calling hc]
      exact Nat.lt_succ_self _

/-- There is a time from which on the loop, as it is now, does something with a turn: there is a
trigger for it, or its call has come back. -/
theorem exists_due (hn : w.world.loop.phase ≠ .calling .never) {target : Nat}
    (ht : w.world.sent.length < target) :
    ∃ due, ∀ (w' : ServedWorld) (received' : Nat), w'.Echoing period p script received' →
      w'.world.loop = w.world.loop → w'.world.sent = w.world.sent →
      w'.world.stop.isTriggered = false → w'.world.loop.isOver = false →
      target ≤ received' / period → due ≤ w'.world.now →
      left target (w'.world.turn script) < left target w'.world := by
  cases hc : w.world.loop.isCalling with
  | true =>
    obtain ⟨due, hdue⟩ := LoopWorld.exists_back hc hn
    refine ⟨due, fun w' received' h hloop hsent hs ho hr hnow => ?_⟩
    obtain ⟨acknowledged, ha⟩ := hdue w'.world hloop hnow
    rw [LoopWorld.turn, ha, LoopWorld.act, LoopWorld.receive_of_onTrigger h.cadence]
    simp only [left, RequestLoop.inFlight_of_calling (hloop ▸ hc)]
    exact Nat.lt_succ_self _
  | false =>
    refine ⟨0, fun w' received' h hloop hsent hs ho hr _ => ?_⟩
    have hb := h.balance ho
    have ht' : w'.world.sent.length < target := hsent ▸ ht
    rw [← hloop] at hc
    rcases turn_cases h with ⟨-, hnone⟩ | ⟨-, hs', -⟩ | ⟨-, -, -, hw⟩ | ⟨hc', -⟩
    · have hp := hnone (RequestLoop.phase_eq_waiting hc ho) hs
      omega
    · rw [hs] at hs'
      cases hs'
    · rw [hw]
      exact left_send_lt ht'
    · rw [hc] at hc'
      cases hc'

/-- A run of an echoing loop that nobody stops, and whose calls all come back. -/
structure Lasting (period : Nat) (p : Profile) (script : CallScript)
    (schedule : Nat → ServedHappening) (w : ServedWorld) : Prop where
  echoing : w.Echoing period p script 0
  fresh : w.world.stop.isTriggered = false
  waiting : w.world.loop.phase = .waiting
  undisturbed : Undisturbed fun k => clock (schedule k)
  unbroken : Unbroken script
  returning : Returning script

theorem Lasting.not_stopped (h : w.Lasting period p script schedule) (k : Nat) :
    (w.run script schedule k).world.stop.isTriggered = false := by
  rw [stop_run h.echoing h.undisturbed, h.fresh]

theorem Lasting.not_over (h : w.Lasting period p script schedule) (k : Nat) :
    (w.run script schedule k).world.loop.isOver = false :=
  isOver_run h.echoing h.unbroken (by simp only [RequestLoop.isOver, h.waiting]) k (h.not_stopped k)

theorem Lasting.phase_ne_never (h : w.Lasting period p script schedule) (k : Nat) :
    (w.run script schedule k).world.loop.phase ≠ .calling .never := by
  induction k with
  | zero => simp [run, h.waiting]
  | succ k ih =>
    exact phase_step_ne_never (echoing_run h.echoing schedule k) h.returning ih (schedule k)

/-- Until less is left, the loop and what it has sent stay as they are. -/
theorem Lasting.unchanged_or_left_lt (h : w.Lasting period p script schedule) {target i j : Nat}
    (ht : (w.run script schedule i).world.sent.length < target) (hij : i ≤ j) :
    (w.run script schedule j).world.loop = (w.run script schedule i).world.loop ∧
        (w.run script schedule j).world.sent = (w.run script schedule i).world.sent ∨
      ∃ m, i ≤ m ∧ left target (w.run script schedule m).world <
        left target (w.run script schedule i).world := by
  induction j, hij using Nat.le_induction with
  | base => exact .inl ⟨rfl, rfl⟩
  | succ j hij ih =>
    rcases ih with ⟨hloop, hsent⟩ | hless
    · rcases left_step (echoing_run h.echoing schedule j) (h.not_stopped j) (hsent ▸ ht)
        (schedule j) with ⟨hloop', hsent'⟩ | hlt
      · exact .inl ⟨hloop'.trans hloop, hsent'.trans hsent⟩
      · refine .inr ⟨j + 1, Nat.le_succ_of_le hij, ?_⟩
        have hsame : left target (w.run script schedule j).world =
            left target (w.run script schedule i).world := by
          simp only [left, hloop, hsent]
        rw [← hsame]
        exact hlt
    · exact .inr hless

/-- With turns again and again each trigger is sent for. -/
theorem Lasting.exists_sent (h : w.Lasting period p script schedule)
    (hf : Fair fun k => clock (schedule k)) (k : Nat) :
    ∃ j, k ≤ j ∧
      tellsBefore schedule k / period ≤ (w.run script schedule j).world.sent.length := by
  generalize htarget : tellsBefore schedule k / period = target
  suffices hexists : ∀ i, k ≤ i → ∃ j, k ≤ j ∧
      target ≤ (w.run script schedule j).world.sent.length from hexists k (Nat.le_refl k)
  intro i hki
  induction hn : left target (w.run script schedule i).world using Nat.strongRecOn
    generalizing i with
  | ind n ih =>
    by_cases ht : (w.run script schedule i).world.sent.length < target
    · obtain ⟨due, hdue⟩ := exists_due (h.phase_ne_never i) ht
      obtain ⟨j, hij, hj, htime⟩ := hf i due
      -- The loop is still the same when it has its turn, and acts, or less is left already.
      rcases h.unchanged_or_left_lt ht hij with ⟨hloop, hsent⟩ | ⟨m, him, hlt⟩
      · have hraised : target ≤ tellsBefore schedule j / period := by
          rw [← htarget]
          exact Nat.div_le_div_right (tellsBefore_mono (Nat.le_trans hki hij))
        have hnow : due ≤ (w.run script schedule j).world.now := by
          rw [now_run]
          omega
        have hlt := hdue _ _ (echoing_run h.echoing schedule j) hloop hsent (h.not_stopped j)
          (h.not_over j) hraised hnow
        rw [← run_of_turn hj] at hlt
        have hsame : left target (w.run script schedule j).world = n := by
          rw [← hn]
          simp only [left, hloop, hsent]
        exact ih _ (hsame ▸ hlt) (j + 1) (by omega) rfl
      · exact ih _ (hn ▸ hlt) m (Nat.le_trans hki him) rfl
    · exact ⟨i, hki, Nat.le_of_not_lt ht⟩

/-- Whatever the answer to its call, an echoing loop waits again, and neither is the request made
anew nor a trigger lost. -/
theorem turn_of_calling (h : w.Echoing period p script received)
    (hc : w.world.loop.isCalling = true) :
    (w.world.turn script).sent = w.world.sent ∧ (w.world.turn script).triggers = w.world.triggers ∧
      (w.world.turn script).loop.isOver = false := by
  rcases turn_cases h with ⟨hw, -⟩ | ⟨hphase, -⟩ | ⟨hphase, -⟩ | ⟨-, acknowledged, hw⟩
  · rw [hw]
    exact ⟨rfl, rfl, RequestLoop.isOver_of_isCalling hc⟩
  · simp [RequestLoop.isCalling, hphase] at hc
  · simp [RequestLoop.isCalling, hphase] at hc
  · rw [hw]
    exact ⟨rfl, rfl, rfl⟩

/-- The requests of an echoing loop are Tells numbered from one on, up to the largest number. -/
theorem request_of_sent (h : w.Echoing period p script received) {i time : Nat} {r : Request}
    (hi : w.world.sent[i]? = some (time, r)) :
    ∃ item, r = .tell item ∧ item.sequence.value.toNat = min (i + 1) SequenceNumber.maxValue := by
  have hr : w.world.requests[i]? = some r := by
    simp [LoopWorld.requests, hi]
  have hlt : i < w.world.sent.length := (List.getElem?_eq_some_iff.mp hi).1
  rw [h.requests, echoes, List.getElem?_map, List.getElem?_range hlt] at hr
  refine ⟨_, (Option.some.inj hr).symm, ?_⟩
  rw [Profile.tellItem, SequenceNumber.value_advance, Nat.add_comm i]
  rfl

/-- The echoing scenario sends a Tell for every n-th that it receives, however calls and turns
follow each other: never more, and no fewer once the triggers are taken. After the stop it sends
nothing. When nobody gives the stop it goes on, and with turns again and again it sends for each
trigger. -/
theorem run_echoes (s : Settings) (p : Profile) :
    (Catalog.find? ⟨6, 1⟩).map (·.wire s p true) =
      some (.ok { table := some (echoTable s p), loops := [echoLoop p] }) ∧
    ∀ (now : Nat) (script : CallScript) (schedule : Nat → ServedHappening),
      let n := max s.tellEvery.toNat 1
      let w := (start (echoTable s p) (echoLoop p) now).run script schedule
      (∀ k,
        let echoed := (w k).world.sent.length
        let pending := (w k).world.triggers.pending
        let due := tellsBefore schedule k / n
        echoed ≤ due ∧
        ((w k).world.loop.phase = .waiting → pending = 0 → echoed = due) ∧
        ((w k).world.loop.isOver = false → echoed + pending = due) ∧
        (∀ i time r, (w k).world.sent[i]? = some (time, r) → ∃ item, r = .tell item ∧
          item.sequence.value.toNat = min (i + 1) SequenceNumber.maxValue) ∧
        (∀ r, schedule k = .call r → r.method ≠ .tell → w (k + 1) = w k) ∧
        (schedule k = .turn → (w k).world.loop.isCalling = true →
          (w (k + 1)).world.sent = (w k).world.sent ∧
          (w (k + 1)).world.triggers = (w k).world.triggers ∧
          (w (k + 1)).world.loop.isOver = false) ∧
        ((w k).world.stop.isTriggered = true → ∀ j, k ≤ j → (w j).world.sent = (w k).world.sent)) ∧
      ((∀ k reason, schedule k ≠ .stop reason) → Unbroken script →
        (∀ k, (w k).world.stop.isTriggered = false ∧ (w k).world.loop.isOver = false) ∧
        (Returning script → Fair (fun k => clock (schedule k)) →
          ∀ k, ∃ j, k ≤ j ∧ tellsBefore schedule k / n ≤ (w j).world.sent.length)) := by
  refine ⟨wire_echoes s p, fun now script schedule => ?_⟩
  have hstart := echoing_start s p now script
  intro n w
  have h : ∀ k, (w k).Echoing n p script (tellsBefore schedule k) := echoing_run hstart schedule
  constructor
  · intro k echoed pending due
    refine ⟨?_, ?_, (h k).balance, fun i time r => request_of_sent (h k), ?_, ?_, ?_⟩
    · exact Nat.le_trans (Nat.le_add_right _ _) (h k).bound
    · intro hphase hpending
      have hb := (h k).balance (by simp only [RequestLoop.isOver, hphase])
      rwa [show (w k).world.triggers.pending = 0 from hpending] at hb
    · intro r hr hm
      have hstep : w (k + 1) = (w k).step script (schedule k) := rfl
      rw [hstep, hr, step, call_of_other (h k) hm]
    · intro hk hc
      have hturn : (w (k + 1)).world = (w k).world.turn script := run_of_turn (congrArg clock hk)
      rw [hturn]
      exact turn_of_calling (h k) hc
    · intro hs j hkj
      exact (winding_run hkj hs).sent
  · intro hu hb
    have hu' : Undisturbed fun k => clock (schedule k) := by
      intro k reason hk
      cases he : schedule k with
      | stop reason' => exact hu k reason' he
      | call _ | pass _ | turn => simp [he, clock] at hk
    have hs : ∀ k, (w k).world.stop.isTriggered = false := by
      intro k
      exact congrArg StopSignal.isTriggered (stop_run hstart hu' k)
    refine ⟨fun k => ⟨hs k, isOver_run hstart hb rfl k (hs k)⟩, fun hr hf => ?_⟩
    exact Lasting.exists_sent ⟨hstart, rfl, rfl, hu', hb, hr⟩ hf

/-- Two Tells with a turn after each, and then a second before each turn. -/
def twoTells (k : Nat) : ServedHappening :=
  if k = 0 ∨ k = 2 then .call (.tell ⟨"a", "b", ⟨1⟩, ⟨0⟩⟩)
  else if k % 2 = 0 then .pass 1000
  else .turn

theorem elapsed_twoTells (m : Nat) :
    elapsed (fun k => clock (twoTells k)) (2 * m + 5) = 1000 * (m + 1) := by
  induction m with
  | zero => rfl
  | succ m ih =>
    have hturn : twoTells (2 * m + 5) = .turn := by
      rw [twoTells, if_neg (by omega), if_neg (by omega)]
    have hpass : twoTells (2 * m + 6) = .pass 1000 := by
      rw [twoTells, if_neg (by omega), if_pos (by omega)]
    rw [Nat.mul_succ, elapsed, elapsed, ih, hturn, hpass, clock, clock, Happening.duration,
      Happening.duration]
    omega

theorem fair_twoTells : Fair fun k => clock (twoTells k) := by
  intro k time
  refine ⟨2 * (k + time) + 5, by omega, ?_, ?_⟩
  · simp only [twoTells]
    rw [if_neg (by omega), if_neg (by omega), clock]
  · rw [elapsed_twoTells]
    omega

/-- Every call fails at once. -/
def failingCalls : CallScript := ⟨fun _ => .atOnce false, fun _ _ => ⟨0⟩⟩

/-- With every second Tell echoed, two Tells bring one, and its failure is no reason for another. -/
theorem run_echoes_twoTells :
    let s : Settings := { tellEvery := 2 }
    let p : Profile := ⟨"me", "me", ⟨"host", 1⟩, 0⟩
    let w := (start (echoTable s p) (echoLoop p) 0).run failingCalls twoTells
    (w 6).world.loop.phase = .waiting ∧ (w 6).world.triggers.pending = 0 ∧
      (w 6).world.sent.length = 1 ∧ ∃ j, 3 ≤ j ∧ 1 ≤ (w j).world.sent.length := by
  intro s p w
  have hphase : (w 6).world.loop.phase = .waiting := by decide
  have hpending : (w 6).world.triggers.pending = 0 := by decide
  have hu : ∀ k reason, twoTells k ≠ .stop reason := by
    intro k reason
    unfold twoTells
    split
    · nofun
    · split <;> nofun
  have hsix : tellsBefore twoTells 6 / max s.tellEvery.toNat 1 = 1 := by decide
  have hthree : tellsBefore twoTells 3 / max s.tellEvery.toNat 1 = 1 := by decide
  obtain ⟨-, hrun⟩ := run_echoes s p
  obtain ⟨hsafe, hlive⟩ := hrun 0 failingCalls twoTells
  refine ⟨hphase, hpending, ((hsafe 6).2.1 hphase hpending).trans hsix, ?_⟩
  rw [← hthree]
  exact (hlive hu nofun).2 nofun fair_twoTells 3

end ScriptedPeer.ServedWorld
