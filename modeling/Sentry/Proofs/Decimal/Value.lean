import Sentry.Decimal.Numeral
import Sentry.Proofs.Number.Moment
import Sentry.Proofs.Number.Operations

/-! The value of a numeral. It is the binary64 number nearest to the decimal that
the numeral spells, unless that decimal lies below the least positive number. -/
namespace Sentry.Rounding
open Float.Model (Format UnpackedFloat totalExponent)
open Float.Model.UnpackedFloat hiding round normalize

variable {format : Format}

/-! ## Whole numbers -/

/-- The quotient of two whole numbers is rounded once. -/
theorem rounded_ratio {num den : ℕ} (num_pos : 0 < num) (den_pos : 0 < den) :
    Rounded format .positive (num / den)
      (div format (.finite .positive num 0 num_pos) (.finite .positive den 0 den_pos)) := by
  have rounded := rounded_quotient format .positive num_pos den_pos 0 0
  simp only [zpow_zero, mul_one] at rounded
  exact rounded

/-- The product of two whole numbers, one of them shifted by a full significand,
is rounded once. -/
theorem rounded_multiple {m n : ℕ} (m_pos : 0 < m) (n_pos : 0 < n) (shifted_pos) :
    Rounded format .positive (m * n)
      (mul format (.finite .positive (m <<< format.mantissaBits) (-format.mantissaBits) shifted_pos)
        (.finite .positive n 0 n_pos)) := by
  have size : format.mantissaBits ≤ ((m <<< format.mantissaBits) * n).log2 := by
    rw [Nat.le_log2 (Nat.mul_pos shifted_pos n_pos).ne', Nat.shiftLeft_eq, mul_right_comm]
    exact Nat.le_mul_of_pos_left _ (by positivity)
  have rounded := rounded_product format .positive shifted_pos n_pos (-format.mantissaBits) 0
    (.inl (size.trans (Nat.le_succ _)))
  have value : ((m <<< format.mantissaBits : ℕ) : ℝ) * 2 ^ (-format.mantissaBits : ℤ) *
      (n * 2 ^ (0 : ℤ)) = m * n := by
    rw [zpow_neg, zpow_natCast, Nat.shiftLeft_eq]
    push_cast
    field_simp
  rw [value] at rounded
  exact rounded

/-! ## Numerals -/

theorem ceiling_le_rank {x : ℝ} (large : (2 : ℝ) ^ (1024 : ℤ) ≤ x) :
    ceiling .binary64 ≤ rank .binary64 x := by
  have top := rank_magnitude wide_binary64 (.infinite rfl)
  rw [← top]
  apply rank_mono
  refine le_trans (le_of_eq ?_) large
  change ((2 ^ 52 : ℕ) : ℝ) * 2 ^ (972 : ℤ) = 2 ^ (1024 : ℤ)
  rw [Nat.cast_pow, Nat.cast_ofNat, ← zpow_natCast, ← zpow_add₀ (by norm_num)]
  norm_num

/-- A decimal is read as the nearest number. -/
theorem ofScientific_word {digits : ℕ} {exponent : ℤ}
    (large : (2 : ℝ) ^ (-1074 : ℤ) ≤ digits * 10 ^ exponent) :
    (pack .binary64 (ofScientific .binary64 digits exponent)).toNat =
      min (rank .binary64 (digits * 10 ^ exponent)) (ceiling .binary64) := by
  have pos : 0 < digits := by
    rw [Nat.pos_iff_ne_zero]
    rintro rfl
    rw [Nat.cast_zero, zero_mul] at large
    exact absurd large (not_le.mpr (by positivity))
  have one : (1 : ℝ) ≤ digits := by exact_mod_cast pos
  unfold ofScientific
  rw [dif_neg pos.ne']
  split_ifs with huge tiny whole
  · rw [pack_infinity, min_eq_right]
    apply ceiling_le_rank
    calc (2 : ℝ) ^ (1024 : ℤ) ≤ 2 ^ exponent :=
          zpow_le_zpow_right₀ (by norm_num) (by simp at huge; omega)
      _ ≤ 10 ^ exponent := zpow_le_zpow_left₀ (by simp at huge; omega) (by norm_num) (by norm_num)
      _ ≤ digits * 10 ^ exponent := le_mul_of_one_le_left (by positivity) one
  · exfalso
    have small : (digits : ℝ) < 2 ^ ((digits.log2 : ℤ) + 1) := by
      exact_mod_cast ((Nat.log2_eq_iff pos.ne').mp rfl).2
    have negative : exponent ≤ 0 := by simp at tiny; omega
    have fewer : (10 : ℝ) ^ exponent ≤ 2 ^ exponent := by
      rw [show (10 : ℝ) = 5 * 2 by norm_num, mul_zpow]
      exact mul_le_of_le_one_left (by positivity)
        (zpow_le_one_of_nonpos₀ (by norm_num) negative)
    have : (digits : ℝ) * 10 ^ exponent < 2 ^ (-1074 : ℤ) := by
      calc (digits : ℝ) * 10 ^ exponent ≤ digits * 2 ^ exponent := by gcongr
        _ < 2 ^ ((digits.log2 : ℤ) + 1) * 2 ^ exponent := by gcongr
        _ = 2 ^ ((digits.log2 : ℤ) + 1 + exponent) := (zpow_add₀ (by norm_num) _ _).symm
        _ ≤ 2 ^ (-1074 : ℤ) := zpow_le_zpow_right₀ (by norm_num) (by simp at tiny; omega)
    linarith
  · have power : (10 : ℝ) ^ exponent = ((10 ^ exponent.toNat : ℕ) : ℝ) := by
      push_cast
      rw [← zpow_natCast, Int.toNat_of_nonneg whole]
    rw [power]
    exact pack_rounded wide_binary64 (rounded_multiple pos (by positivity) _)
  · have power : (digits : ℝ) * 10 ^ exponent =
        digits / ((10 ^ (-exponent).toNat : ℕ) : ℝ) := by
      push_cast
      rw [← zpow_natCast, Int.toNat_of_nonneg (by omega), zpow_neg, div_inv_eq_mul]
    rw [power]
    exact pack_rounded wide_binary64 (rounded_ratio pos (by positivity))

end Sentry.Rounding
