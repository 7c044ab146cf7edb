import Mathlib.Data.Int.ModEq

namespace Uubt.WrapClock

/-- The distance from a deadline to the present, by a counter that shows
both modulo its period. -/
def gap (period now deadline : Nat) : Nat := (period + now % period - deadline % period) % period

variable {period now deadline : Nat}

theorem gap_cast (now deadline : Nat) (hp : 0 < period) :
    (gap period now deadline : Int) = ((now : Int) - deadline) % period := by
  have hd : deadline % period ≤ period + now % period :=
    (Nat.mod_lt deadline hp).le.trans (Nat.le_add_right _ _)
  rw [gap, Int.natCast_mod, Nat.cast_sub hd, Nat.cast_add, Int.natCast_mod, Int.natCast_mod, add_sub_assoc,
    Int.add_emod_left]
  exact (Int.sub_emod _ _ _).symm

/-- The deadline has passed, and less than the period ago. -/
theorem gap_passed (hle : deadline ≤ now) (hlt : now < deadline + period) :
    gap period now deadline = now - deadline := by
  have hp : 0 < period := by omega
  have hc := gap_cast now deadline hp
  rw [Int.emod_eq_of_lt (by omega) (by omega)] at hc
  omega

/-- The deadline is ahead, by at most the period. -/
theorem gap_ahead (hlt : now < deadline) (hle : deadline ≤ now + period) :
    gap period now deadline = now + period - deadline := by
  have hp : 0 < period := by omega
  have hc := gap_cast now deadline hp
  rw [← Int.add_emod_right, Int.emod_eq_of_lt (by omega) (by omega)] at hc
  omega

end Uubt.WrapClock
