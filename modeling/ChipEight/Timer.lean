/-!
# Timers

A timer is a byte that counts down and stays at zero.
-/
namespace ChipEight

abbrev Timer := UInt8

/-- Counts down by `ticks`, to zero at most. -/
def Timer.elapse (timer : Timer) (ticks : UInt8) : Timer :=
  if timer ≤ ticks then 0 else timer - ticks

/-- Counting down is subtraction that stops at zero. -/
theorem Timer.toNat_elapse (timer : Timer) (ticks : UInt8) :
    (timer.elapse ticks).toNat = timer.toNat - ticks.toNat := by
  unfold Timer.elapse
  split <;> rename_i h <;> rw [UInt8.le_iff_toNat_le] at h
  · simp only [UInt8.toNat_zero]
    omega
  · exact UInt8.toNat_sub_of_le _ _ (UInt8.le_iff_toNat_le.mpr (by omega))

end ChipEight
