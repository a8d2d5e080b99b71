import Mathlib.Data.Int.Basic

namespace Chrono

-- a count is signed and has 64 bits, and one that does not fit wraps
def int64 (n : Int) : Int := (n + 9223372036854775808) % 18446744073709551616 - 9223372036854775808

def Fits (n : Int) : Prop := -9223372036854775808 ≤ n ∧ n < 9223372036854775808

instance (n : Int) : Decidable (Fits n) :=
  inferInstanceAs (Decidable (-9223372036854775808 ≤ n ∧ n < 9223372036854775808))

-- a duration of so many units, a unit being so many nanoseconds
def nanoseconds (unit ticks : Int) : Int := int64 (ticks * unit)

def Younger (unit ticks t now : Int) : Prop := int64 (now - t) < nanoseconds unit ticks

instance (unit ticks t now : Int) : Decidable (Younger unit ticks t now) :=
  inferInstanceAs (Decidable (int64 (now - t) < nanoseconds unit ticks))

section
variable {n unit ticks t now : Int}

theorem int64_of_fits (h : Fits n) : int64 n = n := by
  unfold Fits at h
  unfold int64
  omega

theorem fits_int64 (n : Int) : Fits (int64 n) := by
  unfold Fits int64
  omega

theorem younger_iff (hticks : Fits (ticks * unit)) (hspan : Fits (now - t)) :
    Younger unit ticks t now ↔ now - t < ticks * unit := by
  rw [Younger, nanoseconds, int64_of_fits hticks, int64_of_fits hspan]

theorem le_of_not_younger (hle : t ≤ now) (hticks : ticks * unit < 9223372036854775808)
    (h : ¬ Younger unit ticks t now) : ticks * unit ≤ now - t := by
  by_cases hlow : ticks * unit < -9223372036854775808
  · omega
  · have hfits : Fits (ticks * unit) := ⟨by omega, hticks⟩
    rw [Younger, nanoseconds, int64_of_fits hfits] at h
    unfold int64 at h
    omega

end

end Chrono
