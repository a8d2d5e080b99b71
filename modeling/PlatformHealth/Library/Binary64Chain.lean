import PlatformHealth.Library.Binary64Error
import Mathlib.Tactic.NormNum.Pow

namespace Binary64

def unitRoundoff : ℚ := 1 / 2 ^ 53

-- x is q behind k roundings, and q is far from where doubles end
structure Rounded (k e : Nat) (q x : ℚ) : Prop where
  size : q = 0 ∨ 1 / 2 ^ e ≤ q ∧ q ≤ 2 ^ e
  low : (1 - unitRoundoff) ^ k * q ≤ x
  high : x ≤ (1 + unitRoundoff) ^ k * q

section
variable {k l e f : Nat} {q r x y : ℚ}

theorem down_pos : 0 < 1 - unitRoundoff := by norm_num [unitRoundoff]

theorem up_pos : 0 < 1 + unitRoundoff := by norm_num [unitRoundoff]

theorem Rounded.nonneg (h : Rounded k e q x) : 0 ≤ q := by
  rcases h.size with rfl | ⟨hlow, -⟩
  · exact le_refl 0
  · exact le_trans (by positivity) hlow

theorem Rounded.nonneg_right (h : Rounded k e q x) : 0 ≤ x :=
  le_trans (mul_nonneg (pow_nonneg down_pos.le k) h.nonneg) h.low

theorem rounded_natCast {n : Nat} (h : n ≤ 2 ^ e) : Rounded 0 e n n := by
  refine ⟨?_, by simp, by simp⟩
  rcases Nat.eq_zero_or_pos n with rfl | hpos
  · exact .inl Nat.cast_zero
  · have hone : (1 : ℚ) ≤ n := by exact_mod_cast hpos
    refine .inr ⟨le_trans ?_ hone, by exact_mod_cast h⟩
    rw [div_le_one (by positivity)]
    exact one_le_pow₀ (by norm_num)

theorem rounded_hundred : Rounded 0 7 100 100 := by
  have h := rounded_natCast (show 100 ≤ 2 ^ 7 by decide)
  rwa [Nat.cast_ofNat] at h

theorem Rounded.mul (h : Rounded k e q x) (h' : Rounded l f r y) : Rounded (k + l) (e + f) (q * r) (x * y) := by
  have hq := h.nonneg
  have hr := h'.nonneg
  refine ⟨?_, ?_, ?_⟩
  · rcases h.size with rfl | ⟨hlow, hhigh⟩
    · exact .inl (zero_mul r)
    · rcases h'.size with rfl | ⟨hlow', hhigh'⟩
      · exact .inl (mul_zero q)
      · refine .inr ⟨?_, ?_⟩
        · rw [pow_add, ← one_div_mul_one_div]
          exact mul_le_mul hlow hlow' (by positivity) hq
        · rw [pow_add]
          exact mul_le_mul hhigh hhigh' hr (by positivity)
  · rw [pow_add, mul_mul_mul_comm]
    exact mul_le_mul h.low h'.low (mul_nonneg (pow_nonneg down_pos.le l) hr) h.nonneg_right
  · rw [pow_add, mul_mul_mul_comm]
    exact mul_le_mul h.high h'.high h'.nonneg_right (mul_nonneg (pow_nonneg up_pos.le k) hq)

theorem Rounded.inv (h : Rounded l f r y) (hr : r ≠ 0) : Rounded (2 * l) f r⁻¹ y⁻¹ := by
  have hrpos : 0 < r := lt_of_le_of_ne h.nonneg (Ne.symm hr)
  have hypos : 0 < y := lt_of_lt_of_le (mul_pos (pow_pos down_pos l) hrpos) h.low
  obtain ⟨hlow, hhigh⟩ := h.size.resolve_left hr
  refine ⟨.inr ⟨?_, ?_⟩, ?_, ?_⟩
  · rw [one_div]
    exact inv_anti₀ hrpos hhigh
  · rw [inv_le_comm₀ hrpos (by positivity), ← one_div]
    exact hlow
  · have hdown : (1 - unitRoundoff) ^ (2 * l) * (1 + unitRoundoff) ^ l ≤ 1 := by
      rw [pow_mul, ← mul_pow]
      exact pow_le_one₀ (by norm_num [unitRoundoff]) (by norm_num [unitRoundoff])
    rw [← div_eq_mul_inv, div_le_iff₀ hrpos, inv_mul_eq_div, le_div_iff₀ hypos]
    calc (1 - unitRoundoff) ^ (2 * l) * y
        ≤ (1 - unitRoundoff) ^ (2 * l) * ((1 + unitRoundoff) ^ l * r) :=
          mul_le_mul_of_nonneg_left h.high (pow_nonneg down_pos.le _)
      _ = (1 - unitRoundoff) ^ (2 * l) * (1 + unitRoundoff) ^ l * r := by ring
      _ ≤ r := mul_le_of_le_one_left hrpos.le hdown
  · have hup : 1 ≤ (1 + unitRoundoff) ^ (2 * l) * (1 - unitRoundoff) ^ l := by
      rw [pow_mul, ← mul_pow]
      exact one_le_pow₀ (by norm_num [unitRoundoff])
    rw [← div_eq_mul_inv, le_div_iff₀ hrpos, inv_mul_eq_div, div_le_iff₀ hypos]
    calc r ≤ (1 + unitRoundoff) ^ (2 * l) * (1 - unitRoundoff) ^ l * r :=
          le_mul_of_one_le_left hrpos.le hup
      _ = (1 + unitRoundoff) ^ (2 * l) * ((1 - unitRoundoff) ^ l * r) := by ring
      _ ≤ (1 + unitRoundoff) ^ (2 * l) * y := mul_le_mul_of_nonneg_left h.low (pow_nonneg up_pos.le _)

theorem Rounded.div (h : Rounded k e q x) (h' : Rounded l f r y) (hr : r ≠ 0) :
    Rounded (k + 2 * l) (e + f) (q / r) (x / y) := by
  rw [div_eq_mul_inv, div_eq_mul_inv]
  exact h.mul (h'.inv hr)

theorem Rounded.normal (h : Rounded k e q x) (hk : k ≤ 8) (he : e ≤ 250) : x = 0 ∨ Normal x := by
  rcases h.size with rfl | ⟨hlow, hhigh⟩
  · have hx := h.high
    rw [mul_zero] at hx
    exact .inl (le_antisymm hx h.nonneg_right)
  · have hdown : (1 : ℚ) / 2 ≤ (1 - unitRoundoff) ^ k :=
      le_trans (by norm_num [unitRoundoff]) (pow_le_pow_of_le_one down_pos.le (by norm_num [unitRoundoff]) hk)
    have hup : (1 + unitRoundoff) ^ k ≤ 2 :=
      (pow_le_pow_right₀ (by norm_num [unitRoundoff]) hk).trans (by norm_num [unitRoundoff])
    have hbelow : (2 : ℚ) ^ e ≤ 2 ^ 250 := pow_le_pow_right₀ (by norm_num) he
    have habove : (1 : ℚ) / 2 ^ 250 ≤ 1 / 2 ^ e := one_div_le_one_div_of_le (by positivity) hbelow
    refine .inr ⟨?_, ?_⟩
    · calc (2 : ℚ) ^ (-1022 : Int) ≤ 2 ^ (-251 : Int) := zpow_le_zpow_right₀ (by norm_num) (by norm_num)
        _ = 1 / 2 * (1 / 2 ^ 250) := by norm_num
        _ ≤ (1 - unitRoundoff) ^ k * q :=
          mul_le_mul hdown (habove.trans hlow) (by positivity) (pow_nonneg down_pos.le k)
        _ ≤ x := h.low
    · calc x ≤ (1 + unitRoundoff) ^ k * q := h.high
        _ ≤ 2 * 2 ^ 250 := mul_le_mul hup (hhigh.trans hbelow) h.nonneg (by norm_num)
        _ = 2 ^ (251 : Int) := by norm_num
        _ < 2 ^ (1023 : Int) := zpow_lt_zpow_right₀ (by norm_num) (by norm_num)

theorem Rounded.toDouble (h : Rounded k e q x) (hk : k ≤ 8) (he : e ≤ 250) :
    Rounded (k + 1) e q (Binary64.toDouble x) := by
  obtain ⟨hdown, hup⟩ := abs_le.mp (abs_toDouble_sub_le (h.normal hk he))
  have hu : x / 2 ^ 53 = unitRoundoff * x := by rw [unitRoundoff, one_div_mul_eq_div]
  rw [hu] at hdown hup
  refine ⟨h.size, ?_, ?_⟩
  · calc (1 - unitRoundoff) ^ (k + 1) * q = (1 - unitRoundoff) * ((1 - unitRoundoff) ^ k * q) := by ring
      _ ≤ (1 - unitRoundoff) * x := mul_le_mul_of_nonneg_left h.low down_pos.le
      _ ≤ Binary64.toDouble x := by linarith
  · calc Binary64.toDouble x ≤ (1 + unitRoundoff) * x := by linarith
      _ ≤ (1 + unitRoundoff) * ((1 + unitRoundoff) ^ k * q) := mul_le_mul_of_nonneg_left h.high up_pos.le
      _ = (1 + unitRoundoff) ^ (k + 1) * q := by ring

theorem rounded_percent {a b : Nat} (ha : a ≤ 2 ^ e) (hb : b ≤ 2 ^ f) (hne : b ≠ 0) (hsize : e + f + 7 ≤ 250) :
    Rounded 5 (e + f + 7) (a / b * 100)
      (Binary64.toDouble (Binary64.toDouble (Binary64.toDouble a / Binary64.toDouble b) * 100)) := by
  have hcast : (b : ℚ) ≠ 0 := by exact_mod_cast hne
  have hcount := (rounded_natCast ha).toDouble (by decide) (by omega)
  have hclock := (rounded_natCast hb).toDouble (by decide) (by omega)
  have hratio := (hcount.div hclock hcast).toDouble (by decide) (by omega)
  exact (hratio.mul rounded_hundred).toDouble (by decide) hsize

theorem Rounded.abs_sub_le (h : Rounded k e q x) (hk : k ≤ 8) : |x - q| ≤ q / 2 ^ 49 := by
  have hdown : 1 - 1 / 2 ^ 49 ≤ (1 - unitRoundoff) ^ k :=
    le_trans (by norm_num [unitRoundoff]) (pow_le_pow_of_le_one down_pos.le (by norm_num [unitRoundoff]) hk)
  have hup : (1 + unitRoundoff) ^ k ≤ 1 + 1 / 2 ^ 49 :=
    (pow_le_pow_right₀ (by norm_num [unitRoundoff]) hk).trans (by norm_num [unitRoundoff])
  have hlow := (mul_le_mul_of_nonneg_right hdown h.nonneg).trans h.low
  have hhigh := h.high.trans (mul_le_mul_of_nonneg_right hup h.nonneg)
  rw [sub_mul, one_mul, one_div_mul_eq_div] at hlow
  rw [add_mul, one_mul, one_div_mul_eq_div] at hhigh
  rw [abs_le]
  constructor <;> linarith

end

end Binary64
