import ScriptedPeer.Proofs.RequestLoop.Ticking

/-!
# How far apart calls are

Whatever a schedule does, a loop with an interval does not make its calls ahead of its ticks. A tick
that is taken a little late leaves the next where it was, so two calls in a row may be closer than
the interval, but by no more than the tolerance, and however many calls there are between two of
them, it is not more than that. On a clock that waits for the loop only a call that outlasts the
interval by the tolerance at most brings the next two closer. The burst of Tells with one such call
shows that it does.
-/

namespace ScriptedPeer

namespace Ticker

/-- The next tick is an interval away, or closer by the tolerance at most. -/
theorem now_add_interval_le_take (t : Ticker) (now : Nat) :
    now + t.interval ≤ (t.take now).deadline + tolerance := by
  simp only [take]
  split <;> omega

end Ticker

/-- Times that are not ahead of their ticks and so many intervals apart, the tolerance aside. -/
structure Apart (start pace : Nat) (times : List Nat) : Prop where
  ahead : ∀ (i a : Nat), times[i]? = some a → start + i * pace ≤ a
  apart : ∀ (i j a b : Nat), i < j → times[i]? = some a → times[j]? = some b →
    a + (j - i) * pace ≤ b + Ticker.tolerance

namespace Apart

variable {start pace : Nat} {times : List Nat} {a b due now next : Nat}

theorem getElem?_concat {i : Nat} :
    (times ++ [b])[i]? = some a ↔ times[i]? = some a ∨ i = times.length ∧ a = b := by
  rcases Nat.lt_trichotomy i times.length with hlt | rfl | hgt
  · rw [List.getElem?_append_left hlt]
    simp [Nat.ne_of_lt hlt]
  · simp [eq_comm]
  · rw [List.getElem?_eq_none (Nat.le_of_lt hgt), List.getElem?_eq_none]
    · simp [Nat.ne_of_gt hgt]
    · rw [List.length_append]
      exact hgt

theorem nil (start pace : Nat) : Apart start pace [] := ⟨nofun, nofun⟩

/-- A further time is not ahead of its tick either, and far enough from each before it. -/
theorem concat_iff : Apart start pace (times ++ [b]) ↔
    Apart start pace times ∧ start + times.length * pace ≤ b ∧
      ∀ (i a : Nat), times[i]? = some a →
        a + (times.length - i) * pace ≤ b + Ticker.tolerance := by
  constructor
  · intro h
    have hold {i a : Nat} (hi : times[i]? = some a) : (times ++ [b])[i]? = some a :=
      getElem?_concat.mpr (.inl hi)
    have hnew : (times ++ [b])[times.length]? = some b := getElem?_concat.mpr (.inr ⟨rfl, rfl⟩)
    refine ⟨⟨fun i a hi => h.ahead i a (hold hi), fun i j a c hij hi hj => ?_⟩, ?_, ?_⟩
    · exact h.apart i j a c hij (hold hi) (hold hj)
    · exact h.ahead _ _ hnew
    · intro i a hi
      exact h.apart _ _ _ _ (List.getElem?_eq_some_iff.mp hi).1 (hold hi) hnew
  · rintro ⟨h, hb, hfar⟩
    refine ⟨fun i a hi => ?_, fun i j a c hij hi hj => ?_⟩
    · rcases getElem?_concat.mp hi with hi | ⟨rfl, rfl⟩
      · exact h.ahead i a hi
      · exact hb
    · rcases getElem?_concat.mp hj with hj | ⟨rfl, rfl⟩
      · have hlt := (List.getElem?_eq_some_iff.mp hj).1
        rcases getElem?_concat.mp hi with hi | ⟨rfl, -⟩
        · exact h.apart i j a c hij hi hj
        · exact absurd hij (Nat.lt_asymm hlt)
      · rcases getElem?_concat.mp hi with hi | ⟨rfl, -⟩
        · exact hfar i a hi
        · exact absurd hij (Nat.lt_irrefl _)

/-- A call that is made when its tick is due or later keeps its distance, and so does the next tick
if it is far enough from both. -/
theorem call (h : Apart start pace (times ++ [due])) (hdue : due ≤ now) (hnext : due + pace ≤ next)
    (hfar : now + pace ≤ next + Ticker.tolerance) :
    Apart start pace (times ++ [now] ++ [next]) := by
  obtain ⟨htimes, hahead, hapart⟩ := concat_iff.mp h
  rw [concat_iff, concat_iff, List.length_append, List.length_singleton, Nat.succ_mul]
  refine ⟨⟨htimes, Nat.le_trans hahead hdue, fun i a hi => ?_⟩, by omega, fun i a hi => ?_⟩
  · exact Nat.le_trans (hapart i a hi) (Nat.add_le_add_right hdue _)
  · rcases getElem?_concat.mp hi with hi | ⟨rfl, rfl⟩
    · have hlt := (List.getElem?_eq_some_iff.mp hi).1
      have hle := hapart i a hi
      rw [Nat.succ_sub (Nat.le_of_lt hlt), Nat.succ_mul]
      omega
    · rw [Nat.add_sub_cancel_left, Nat.one_mul]
      exact hfar

end Apart

namespace LoopWorld

variable {w : LoopWorld} {script : CallScript} {schedule : Nat → Happening} {start pace : Nat}

/-- The calls are apart, and so is the next tick. -/
def Spaced (start pace : Nat) (w : LoopWorld) : Prop :=
  ∃ t, w.loop.cadence.ticker? = some t ∧ t.interval = pace ∧
    Apart start pace (w.sent.map Prod.fst ++ [t.deadline])

theorem Spaced.apart (h : w.Spaced start pace) : Apart start pace (w.sent.map Prod.fst) := by
  obtain ⟨t, -, -, happart⟩ := h
  exact (Apart.concat_iff.mp happart).1

theorem spaced_turn (h : w.Spaced start pace) (script : CallScript) :
    (w.turn script).Spaced start pace := by
  obtain ⟨t, ht, hp, happart⟩ := h
  rcases w.action_cases with ⟨ha, -⟩ | ⟨ha, hphase, -⟩ | ⟨-, acknowledged, ha⟩ | ⟨-, ha | ⟨why, ha⟩⟩
  · rw [turn_of_rest ha]
    exact ⟨t, ht, hp, happart⟩
  · rw [turn, ha, act]
    have hdue := due_of_send hphase ht ha
    refine ⟨t.take w.now, ?_, hp, ?_⟩
    · rw [loop_send, RequestLoop.cadence_send, Cadence.ticker?_mapTicker, ht, Option.map_some]
    · have hsent : (w.send script).sent.map Prod.fst = w.sent.map Prod.fst ++ [w.now] :=
        List.map_append
      subst hp
      rw [hsent]
      exact happart.call hdue (t.deadline_add_interval_le_take w.now)
        (t.now_add_interval_le_take w.now)
  · rw [turn, ha, act]
    exact ⟨t, (w.loop.ticker_receive acknowledged).trans ht, hp, happart⟩
  · rw [turn, ha, act]
    exact ⟨t, ht, hp, happart⟩
  · rw [turn, ha, act]
    exact ⟨t, ht, hp, happart⟩

theorem spaced_run (h : w.Spaced start pace) (script : CallScript) (schedule : Nat → Happening)
    (k : Nat) : (w.run script schedule k).Spaced start pace := by
  induction k with
  | zero => exact h
  | succ k ih =>
    rw [run_succ]
    cases schedule k with
    | turn => exact spaced_turn ih script
    | pass _ | stop _ | trigger | closeTriggers => exact ih

theorem spaced_started {c : Cadence} {t : Ticker} (hc : c.ticker? = some t) (m : Method)
    (p : Profile) (start : Nat) (stop : StopSignal) (triggers : Triggers) :
    (started m c p start stop triggers).Spaced start t.interval := by
  refine ⟨t.start start, ticker_started hc m p start stop triggers, rfl, ?_⟩
  exact Apart.concat_iff.mpr ⟨.nil _ _, by simp [started, Ticker.start], nofun⟩

/-- Calls that were made at the times foreseen are as far apart as the interval, or as long as the
earlier one took. -/
theorem OnTime.gap (h : w.OnTime script start pace) {i a b : Nat}
    (hi : (w.sent.map Prod.fst)[i]? = some a) (hj : (w.sent.map Prod.fst)[i + 1]? = some b) :
    b = a + max pace (script.reaction i).duration := by
  have hat {i a : Nat} (hi : (w.sent.map Prod.fst)[i]? = some a) :
      a = script.callTime start pace i := by
    have hlt := (List.getElem?_eq_some_iff.mp hi).1
    rw [List.length_map] at hlt
    rw [h.times, List.getElem?_map, List.getElem?_range hlt, Option.map_some] at hi
    exact (Option.some.inj hi).symm
  rw [hat hi, hat hj, CallScript.callTime]

/-- Any two calls of a loop with an interval are so many intervals apart, but for the tolerance of
the ticker, and none is ahead of its tick. On a clock that waits for the loop the tolerance does not
come in, unless a call outlasts the interval by so little: two calls in a row are then as far apart
as the interval, or as long as the first one takes. -/
theorem calls_apart (m : Method) (c : Cadence) (t : Ticker) (hc : c.ticker? = some t) (p : Profile)
    (start : Nat) (stop : StopSignal) (triggers : Triggers) (script : CallScript)
    (schedule : Nat → Happening) :
    let world := started m c p start stop triggers
    let pace := t.interval
    ∀ k,
      let times := (world.run script schedule k).sent.map Prod.fst
      (∀ i j a b, i < j → times[i]? = some a → times[j]? = some b →
        a + (j - i) * pace ≤ b + Ticker.tolerance) ∧
      (∀ i a, times[i]? = some a → start + i * pace ≤ a) ∧
      (world.Prompt script schedule → (∀ i, ¬ (script.reaction i).Overruns pace) →
        ∀ i a b, times[i]? = some a → times[i + 1]? = some b →
          b = a + max pace (script.reaction i).duration) := by
  intro world pace k times
  have hspaced := spaced_run (spaced_started hc m p start stop triggers) script schedule k
  refine ⟨hspaced.apart.apart, hspaced.apart.ahead, fun hclock hclear i a b hi hj => ?_⟩
  exact (onTime_run (onTime_started hc m p start stop triggers script) hclear hclock k).gap hi hj

/-- The burst of five Tells, with two seconds between them. -/
def tellBurst : LoopWorld :=
  started .tell (.bounded { interval := 2000 } { limit := 5 } false .stopProcess)
    ⟨"me", "me", ⟨"host", 1⟩, 0⟩ 0 {} {}

/-- The first call takes its time, and the others return at once. -/
def firstTakes (millis : Nat) : CallScript :=
  ⟨fun i => if i = 0 then .after millis true else .atOnce true, fun _ _ => ⟨0⟩⟩

/-- The second call is made when the first is back, and the third so much later. -/
def burstTurns (first second : Nat) : List Happening :=
  [.turn, .pass first, .turn, .turn, .turn, .pass second, .turn, .turn, .pass 2000, .turn, .turn,
    .pass 2000, .turn, .turn]

def burst (first second : Nat) : Nat → LoopWorld :=
  tellBurst.run (firstTakes first) (thenEverySecond (burstTurns first second))

/-- A first call that outlasts the interval by six milliseconds starts the schedule anew. -/
theorem lateBurst_apart :
    let times := (burst 2006 2000 14).sent.map Prod.fst
    times = [0, 2006, 4006, 6006, 8006] ∧
    (∀ i a b, times[i]? = some a → times[i + 1]? = some b →
      b = a + max 2000 ((firstTakes 2006).reaction i).duration) := by
  intro times
  have hclear (i : Nat) : ¬ ((firstTakes 2006).reaction i).Overruns 2000 := by
    rcases i with - | i
    · exact fun h => absurd h.2 (by decide)
    · exact fun h => absurd h.1 (Nat.not_lt_zero _)
  refine ⟨by decide, ?_⟩
  exact ((calls_apart .tell _ { interval := 2000 } rfl ⟨"me", "me", ⟨"host", 1⟩, 0⟩ 0 {} {}
    (firstTakes 2006) (thenEverySecond (burstTurns 2006 2000)) 14).2.2
      (prompt_thenEverySecond (by decide) (by decide)) hclear)

/-- A first call that outlasts the interval by three milliseconds leaves the schedule as it is, so
that the third call comes too early after the second. -/
theorem burst_closer :
    let times := (burst 2003 1997 14).sent.map Prod.fst
    tellBurst.Prompt (firstTakes 2003) (thenEverySecond (burstTurns 2003 1997)) ∧
    times = [0, 2003, 4000, 6000, 8000] ∧
    ¬ ∀ i a b, times[i]? = some a → times[i + 1]? = some b → a + 2000 ≤ b := by
  intro times
  have htimes : times = [0, 2003, 4000, 6000, 8000] := by decide
  refine ⟨prompt_thenEverySecond (by decide) (by decide), htimes, fun h => ?_⟩
  have hgap : 2003 + 2000 ≤ 4000 := h 1 2003 4000 (by rw [htimes]; rfl) (by rw [htimes]; rfl)
  exact absurd hgap (by decide)

end LoopWorld
end ScriptedPeer
