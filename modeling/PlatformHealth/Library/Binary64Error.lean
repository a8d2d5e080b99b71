import PlatformHealth.Library.Binary64
import Mathlib.Algebra.Order.Field.Power
import Mathlib.Data.Nat.Log
import Mathlib.Tactic.FieldSimp
import Mathlib.Tactic.Linarith
import Mathlib.Tactic.Positivity
import Mathlib.Tactic.Ring

namespace Binary64

section
variable {q : ℚ}

theorem abs_nearest_sub_le (q : ℚ) : |(nearest q : ℚ) - q| ≤ 1 / 2 := by
  have hlow : (q.floor : ℚ) ≤ q := Rat.floor_le q
  have hhigh : q < (q.floor + 1 : Int) := Rat.lt_floor_add_one q
  push_cast at hhigh
  rw [abs_le, nearest]
  split_ifs with h₁ h₂ h₃
  all_goals push_cast
  all_goals constructor <;> linarith

theorem nearest_intCast (z : Int) : nearest z = z := by
  rw [nearest, Rat.floor_intCast, if_pos]
  simp

theorem ratPow2_eq (e : Int) : ratPow2 e = (2 : ℚ) ^ e := by
  cases e with
  | ofNat n => simp [ratPow2]
  | negSucc n => simp [ratPow2, zpow_negSucc]

theorem log2_bounds {n : Nat} (h : n ≠ 0) :
    (2 : ℚ) ^ (Nat.log2 n : Int) ≤ n ∧ (n : ℚ) < 2 ^ ((Nat.log2 n : Int) + 1) := by
  have hlow := Nat.log2_self_le h
  have hhigh := @Nat.lt_log2_self n
  constructor
  · rw [zpow_natCast]
    exact_mod_cast hlow
  · have hcast : ((Nat.log2 n : Int) + 1) = ((Nat.log2 n + 1 : Nat) : Int) := by push_cast; rfl
    rw [hcast, zpow_natCast]
    exact_mod_cast hhigh

theorem binaryExponent_spec (hq : 0 < q) :
    (2 : ℚ) ^ binaryExponent q ≤ q ∧ q < 2 ^ (binaryExponent q + 1) := by
  have hnum : q.num.toNat ≠ 0 := by
    have hpos := Rat.num_pos.mpr hq
    omega
  have hcast : (q.num.toNat : ℚ) = q * q.den := by
    have hnat : ((q.num.toNat : Int) : ℚ) = (q.num : ℚ) := by
      rw [Int.toNat_of_nonneg (Rat.num_nonneg.mpr hq.le)]
    rw [← Int.cast_natCast, hnat, Rat.mul_den_eq_num]
  obtain ⟨hnumLow, hnumHigh⟩ := log2_bounds hnum
  obtain ⟨hdenLow, hdenHigh⟩ := log2_bounds q.den_nz
  have hden : (0 : ℚ) < q.den := by exact_mod_cast q.pos
  rw [hcast] at hnumLow hnumHigh
  rw [binaryExponent]
  generalize (Nat.log2 q.num.toNat : Int) = a at *
  generalize (Nat.log2 q.den : Int) = b at *
  have htwo : (2 : ℚ) ≠ 0 := by norm_num
  have hhigh : q < 2 ^ (a - b + 1) := by
    have hsplit : (2 : ℚ) ^ (a + 1) = 2 ^ (a - b + 1) * 2 ^ b := by
      rw [← zpow_add₀ htwo]
      congr 1
      ring
    rw [hsplit] at hnumHigh
    have hstep : q * q.den < 2 ^ (a - b + 1) * q.den :=
      hnumHigh.trans_le (mul_le_mul_of_nonneg_left hdenLow (by positivity))
    exact lt_of_mul_lt_mul_right hstep hden.le
  have hlow : (2 : ℚ) ^ (a - b - 1) ≤ q := by
    have hsplit : (2 : ℚ) ^ a = 2 ^ (a - b - 1) * 2 ^ (b + 1) := by
      rw [← zpow_add₀ htwo]
      congr 1
      ring
    rw [hsplit] at hnumLow
    have hstep : (2 : ℚ) ^ (a - b - 1) * q.den ≤ q * q.den :=
      (mul_le_mul_of_nonneg_left hdenHigh.le (by positivity)).trans hnumLow
    exact le_of_mul_le_mul_right hstep hden
  rw [ratPow2_eq]
  split_ifs with hle
  · exact ⟨hle, hhigh⟩
  · refine ⟨hlow, ?_⟩
    rw [sub_add_cancel]
    exact not_le.mp hle

def ulp (q : ℚ) : ℚ := ratPow2 (max (binaryExponent q - 52) (-1074))

theorem ulp_pos (q : ℚ) : 0 < ulp q := by
  rw [ulp, ratPow2_eq]
  positivity

-- in the range where a double has all of its 53 bits
def Normal (q : ℚ) : Prop := 2 ^ (-1022 : Int) ≤ q ∧ q < 2 ^ (1023 : Int)

theorem Normal.pos (h : Normal q) : 0 < q := lt_of_lt_of_le (by positivity) h.1

theorem Normal.ulp_le (h : Normal q) : ulp q ≤ q / 2 ^ 52 := by
  obtain ⟨hlow, hhigh⟩ := binaryExponent_spec h.pos
  have hexp : (-1022 : Int) < binaryExponent q + 1 :=
    (zpow_lt_zpow_iff_right₀ (by norm_num : (1 : ℚ) < 2)).mp (h.1.trans_lt hhigh)
  rw [ulp, ratPow2_eq, max_eq_left (by omega), zpow_sub₀ (by norm_num), le_div_iff₀ (by positivity)]
  have hsame : (2 : ℚ) ^ binaryExponent q / 2 ^ (52 : Int) * 2 ^ 52 = 2 ^ binaryExponent q := by
    have hpow : (2 : ℚ) ^ (52 : Int) = 2 ^ 52 := by norm_cast
    rw [hpow]
    exact div_mul_cancel₀ _ (by positivity)
  rw [hsame]
  exact hlow

theorem Normal.abs_sub_le (h : Normal q) : |(nearest (q / ulp q) : ℚ) * ulp q - q| ≤ q / 2 ^ 53 := by
  have hulp := ulp_pos q
  have hscaled := mul_le_mul_of_nonneg_right (abs_nearest_sub_le (q / ulp q)) hulp.le
  rw [← abs_of_pos hulp, ← abs_mul, abs_of_pos hulp, sub_mul, div_mul_cancel₀ _ hulp.ne'] at hscaled
  have hhalf : q / 2 ^ 53 = 1 / 2 * (q / 2 ^ 52) := by ring
  rw [hhalf]
  exact hscaled.trans (mul_le_mul_of_nonneg_left h.ulp_le (by norm_num))

theorem Normal.round_eq (h : Normal q) : round q = some ((nearest (q / ulp q) : ℚ) * ulp q) := by
  have hbelow : (nearest (q / ulp q) : ℚ) * ulp q < ratPow2 1024 := by
    have hupper := (abs_le.mp h.abs_sub_le).2
    have hsmall : q / 2 ^ 53 ≤ q := div_le_self h.pos.le (by norm_num)
    have hpow : ratPow2 1024 = 2 * 2 ^ (1023 : Int) := by
      rw [ratPow2_eq, ← zpow_one_add₀ (by norm_num)]
      congr 1
    have htop := h.2
    rw [hpow]
    generalize (2 : ℚ) ^ (1023 : Int) = top at htop ⊢
    linarith
  rw [round, if_neg (not_lt.mpr h.pos.le), roundAbs, if_neg h.pos.ne']
  exact if_pos hbelow

-- the double that a value in the range becomes
def toDouble (q : ℚ) : ℚ := (round q).getD 0

@[simp] theorem toDouble_zero : toDouble 0 = 0 := rfl

theorem toDouble_of_round {d : ℚ} (h : round q = some d) : toDouble q = d := by rw [toDouble, h, Option.getD_some]

theorem Normal.round_toDouble (h : Normal q) : round q = some (toDouble q) := by
  rw [toDouble_of_round h.round_eq, h.round_eq]

theorem abs_toDouble_sub_le (h : q = 0 ∨ Normal q) : |toDouble q - q| ≤ q / 2 ^ 53 := by
  rcases h with rfl | h
  · simp
  · rw [toDouble_of_round h.round_eq]
    exact h.abs_sub_le

theorem Normal.toDouble_isInt (h : Normal q) (hlarge : 2 ^ 52 ≤ q) : ∃ z : Int, toDouble q = z := by
  obtain ⟨-, hhigh⟩ := binaryExponent_spec h.pos
  have hexp : (52 : Int) < binaryExponent q + 1 := by
    rw [← zpow_lt_zpow_iff_right₀ (by norm_num : (1 : ℚ) < 2)]
    exact lt_of_le_of_lt (by exact_mod_cast hlarge) hhigh
  obtain ⟨k, hk⟩ : ∃ k : Nat, max (binaryExponent q - 52) (-1074) = (k : Int) :=
    ⟨(binaryExponent q - 52).toNat, by omega⟩
  refine ⟨nearest (q / ulp q) * 2 ^ k, ?_⟩
  rw [toDouble_of_round h.round_eq, ulp, hk, ratPow2_eq, zpow_natCast]
  push_cast
  rfl

theorem round_natCast {n : Nat} (h : n < 2 ^ 53) : round n = some (n : ℚ) := by
  rw [round, if_neg (not_lt.mpr (Nat.cast_nonneg n)), roundAbs]
  by_cases hzero : n = 0
  · simp [hzero]
  · have hpos : (0 : ℚ) < n := by exact_mod_cast Nat.pos_of_ne_zero hzero
    have hone : (1 : ℚ) ≤ n := by exact_mod_cast Nat.pos_of_ne_zero hzero
    have hbound : (n : ℚ) < 2 ^ (53 : Int) := by exact_mod_cast h
    obtain ⟨hlow, hhigh⟩ := binaryExponent_spec hpos
    have hbase : (1 : ℚ) < 2 := by norm_num
    have hexpLow : (0 : Int) < binaryExponent n + 1 := by
      rw [← zpow_lt_zpow_iff_right₀ hbase, zpow_zero]
      exact hone.trans_lt hhigh
    have hexpHigh : binaryExponent (n : ℚ) < 53 :=
      (zpow_lt_zpow_iff_right₀ hbase).mp (hlow.trans_lt hbound)
    obtain ⟨k, hk⟩ : ∃ k : Nat, max (binaryExponent (n : ℚ) - 52) (-1074) = -(k : Int) :=
      ⟨(52 - binaryExponent (n : ℚ)).toNat, by omega⟩
    have hscale : (n : ℚ) / ratPow2 (-(k : Int)) = ((n * 2 ^ k : Nat) : Int) := by
      rw [ratPow2_eq, zpow_neg, zpow_natCast, div_inv_eq_mul]
      push_cast
      rfl
    have hback : (((n * 2 ^ k : Nat) : Int) : ℚ) * ratPow2 (-(k : Int)) = n := by
      rw [← hscale, div_mul_cancel₀]
      rw [ratPow2_eq]
      positivity
    have hsmall : (n : ℚ) < ratPow2 1024 := by
      rw [ratPow2_eq]
      exact hbound.trans (zpow_lt_zpow_right₀ hbase (by norm_num))
    rw [if_neg hpos.ne', hk]
    simp only [hscale, nearest_intCast, hback, hsmall, if_true]

theorem toDouble_natCast {n : Nat} (h : n < 2 ^ 53) : toDouble n = n := toDouble_of_round (round_natCast h)

theorem normal_natCast {n : Nat} (hpos : 0 < n) (h : n < 2 ^ 64) : Normal n := by
  have hone : (1 : ℚ) ≤ n := by exact_mod_cast hpos
  have hbound : (n : ℚ) < 2 ^ (64 : Int) := by exact_mod_cast h
  constructor
  · refine le_trans ?_ hone
    rw [← zpow_zero (2 : ℚ)]
    exact zpow_le_zpow_right₀ (by norm_num) (by norm_num)
  · exact hbound.trans (zpow_lt_zpow_right₀ (by norm_num) (by norm_num))

end

end Binary64
