import ScriptedPeer.Policy

/-!
# Counters that run out

What a bounded counter answers depends on how often it was asked before. With a limit of `n` it says
to act n - 1 times, then once that the limit has been reached, and from then on that it is exhausted;
a limit of zero is exhausted from the start. It counts up to its limit and stays there.
-/

namespace ScriptedPeer.BoundedCounter

/-- A counter that was asked `k` times. -/
def askedTimes (limit : UInt32) (k : Nat) : BoundedCounter :=
  ⟨limit, UInt32.ofNat (min k limit.toNat)⟩

theorem toNat_count_askedTimes (limit : UInt32) (k : Nat) :
    (askedTimes limit k).count.toNat = min k limit.toNat := by
  have hl := limit.toNat_lt
  apply UInt32.toNat_ofNat_of_lt'
  change min k limit.toNat < 2 ^ 32
  omega

@[simp] theorem askedTimes_zero (limit : UInt32) : askedTimes limit 0 = { limit } := by
  simp [askedTimes]

theorem askedTimes_of_le {limit : UInt32} {j k : Nat} (hj : limit.toNat ≤ j) (hk : limit.toNat ≤ k) :
    askedTimes limit j = askedTimes limit k := by
  simp only [askedTimes, Nat.min_eq_right hj, Nat.min_eq_right hk]

theorem count_askedTimes_succ {limit : UInt32} {k : Nat} (h : k < limit.toNat) :
    (askedTimes limit k).count + 1 = (askedTimes limit (k + 1)).count := by
  apply UInt32.toNat.inj
  have hl := limit.toNat_lt
  rw [UInt32.toNat_add, toNat_count_askedTimes, toNat_count_askedTimes]
  change (min k limit.toNat + 1) % 2 ^ 32 = _
  omega

/-- While the limit is ahead, asking once more counts. -/
theorem check_of_lt {limit : UInt32} {k : Nat} (h : k < limit.toNat) :
    (askedTimes limit k).check =
      (if k + 1 < limit.toNat then .act else .limitReached, askedTimes limit (k + 1)) := by
  have hc : (askedTimes limit k).count < (askedTimes limit k).limit := by
    rw [UInt32.lt_iff_toNat_lt, toNat_count_askedTimes]
    change min k limit.toNat < limit.toNat
    omega
  have hn : (askedTimes limit (k + 1)).count < limit ↔ k + 1 < limit.toNat := by
    rw [UInt32.lt_iff_toNat_lt, toNat_count_askedTimes]
    omega
  simp only [check, if_pos hc, count_askedTimes_succ h]
  change (if (askedTimes limit (k + 1)).count < limit then CounterDecision.act else .limitReached,
    askedTimes limit (k + 1)) = _
  by_cases hk : k + 1 < limit.toNat
  · rw [if_pos hk, if_pos (hn.mpr hk)]
  · rw [if_neg hk, if_neg (mt hn.mp hk)]

theorem check_of_le {limit : UInt32} {k : Nat} (h : limit.toNat ≤ k) :
    (askedTimes limit k).check = (.exhausted, askedTimes limit (k + 1)) := by
  have hc : ¬ (askedTimes limit k).count < (askedTimes limit k).limit := by
    rw [UInt32.lt_iff_toNat_lt, toNat_count_askedTimes]
    change ¬ min k limit.toNat < limit.toNat
    omega
  rw [check, if_neg hc, askedTimes_of_le h (Nat.le_succ_of_le h)]

/-- Asked for the (k + 1)-th time, the counter says to act, that its limit has been reached, or that
it is exhausted. -/
theorem check_askedTimes (limit : UInt32) (k : Nat) :
    (askedTimes limit k).check =
      (if k + 1 < limit.toNat then .act
        else if k + 1 = limit.toNat then .limitReached else .exhausted,
        askedTimes limit (k + 1)) := by
  by_cases h : k < limit.toNat
  · rw [check_of_lt h]
    by_cases hk : k + 1 < limit.toNat
    · rw [if_pos hk, if_pos hk]
    · rw [if_neg hk, if_neg hk, if_pos (by omega)]
  · rw [check_of_le (by omega), if_neg (by omega), if_neg (by omega)]

end ScriptedPeer.BoundedCounter
