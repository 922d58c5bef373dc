import Sentry.Proofs.Number.Packing

/-! Products, quotients and square roots. Each is worked out to enough bits, with
a note on what is left over, so that it is rounded only once. -/
namespace Sentry.Rounding
open Float.Model (Format UnpackedFloat totalExponent)
open Float.Model.UnpackedFloat hiding round normalize

/-! ## Products -/

theorem log2_le_mul {m k : ℕ} (pos : 0 < m) (pos' : 0 < k) : m.log2 ≤ (m * k).log2 := by
  have size : 2 ^ m.log2 ≤ m := Nat.log2_self_le pos.ne'
  rw [Nat.le_log2 (Nat.mul_pos pos pos').ne']
  exact size.trans (Nat.le_mul_of_pos_right m pos')

/-- The product of two stored significands is short only far below the lowest
exponent. -/
theorem product_long {format : Format} {m₁ m₂ : ℕ} {e₁ e₂ : ℤ} (bottom : format.minExponent ≤ 0)
    (fits₁ : Fits format m₁ e₁) (fits₂ : Fits format m₂ e₂) :
    format.mantissaBits ≤ (m₁ * m₂).log2 + 1 ∨ e₁ + e₂ ≤ format.minExponent := by
  have first := log2_le_mul fits₁.pos fits₂.pos
  have second := log2_le_mul fits₂.pos fits₁.pos
  rw [mul_comm] at second
  have normal := (log2_of_fits fits₁).2
  have normal' := (log2_of_fits fits₂).2
  unfold Format.mantissaBits
  omega

/-- The product of two significands is exact, and is not too short if its
exponent lies below all others. -/
theorem rounded_product (format : Format) {m₁ m₂ : ℕ} (sign : Sign) (pos₁ : 0 < m₁)
    (pos₂ : 0 < m₂) (e₁ e₂ : ℤ)
    (long : format.mantissaBits ≤ (m₁ * m₂).log2 + 1 ∨ e₁ + e₂ ≤ format.minExponent) :
    Rounded format sign (m₁ * 2 ^ e₁ * (m₂ * 2 ^ e₂))
      (roundWithAccuracy format sign (m₁ * m₂) (e₁ + e₂) .exact) := by
  have reads : Reads (.ofMantissaAndAccuracy (m₁ * m₂) .exact) ((m₁ * m₂ : ℕ) : ℝ) := by
    simp [Reads, ExtendedMantissa.ofMantissaAndAccuracy]
  have coarse : e₁ + e₂ ≤ format.targetExponent (totalExponent (m₁ * m₂) (e₁ + e₂)) := by
    unfold Format.targetExponent totalExponent
    omega
  have value : (m₁ * 2 ^ e₁ * (m₂ * 2 ^ e₂) : ℝ) = ((m₁ * m₂ : ℕ) : ℝ) * 2 ^ (e₁ + e₂) := by
    rw [zpow_add₀ (by norm_num)]
    push_cast
    ring
  rw [value]
  exact rounded_with_accuracy sign (Nat.mul_pos pos₁ pos₂) reads coarse

/-! ## Quotients -/

/-- The rest of a division says where the exact quotient lies. -/
theorem reads_fraction (num : ℕ) {den : ℕ} (pos : 0 < den) :
    Reads (.ofMantissaAndAccuracy (num / den) (accuracyOfFraction (num % den) den))
      (num / den : ℝ) := by
  have positive : (0 : ℝ) < den := by exact_mod_cast pos
  have parts : ((num / den : ℕ) : ℝ) * den + ((num % den : ℕ) : ℝ) = num := by
    exact_mod_cast Nat.div_add_mod' num den
  have small : ((num % den : ℕ) : ℝ) < den := by exact_mod_cast Nat.mod_lt num pos
  have value : (num / den : ℝ) = (num / den : ℕ) + ((num % den : ℕ) : ℝ) / den := by
    rw [← parts]
    field_simp
  rw [value]
  generalize num % den = rest at small ⊢
  unfold accuracyOfFraction
  split_ifs with none
  · simp [Reads, ExtendedMantissa.ofMantissaAndAccuracy, none]
  · have some_rest : (0 : ℝ) < rest := by exact_mod_cast Nat.pos_of_ne_zero none
    rcases lt_trichotomy (2 * rest) den with lt | eq | gt
    · have half : (2 * rest : ℝ) < den := by exact_mod_cast lt
      rw [compare_lt_iff_lt.mpr lt]
      change ((num / den : ℕ) : ℝ) < _ ∧ _ < ((num / den : ℕ) : ℝ) + 1 / 2
      rw [add_lt_add_iff_left, div_lt_iff₀ positive, lt_add_iff_pos_right]
      exact ⟨by positivity, by linarith⟩
    · have half : (2 * rest : ℝ) = den := by exact_mod_cast eq
      rw [compare_eq_iff_eq.mpr eq]
      change _ = ((num / den : ℕ) : ℝ) + 1 / 2
      rw [add_right_inj, div_eq_iff positive.ne']
      linarith
    · have half : (den : ℝ) < 2 * rest := by exact_mod_cast gt
      rw [compare_gt_iff_gt.mpr gt]
      change ((num / den : ℕ) : ℝ) + 1 / 2 < _ ∧ _ < ((num / den : ℕ) : ℝ) + 1
      rw [add_lt_add_iff_left, add_lt_add_iff_left, lt_div_iff₀ positive, div_lt_one positive]
      exact ⟨by linarith, small⟩

/-- A quotient has about as many bits as its numerator has more than its
denominator. -/
theorem log_quotient {num den : ℕ} (num_pos : 0 < num) (den_pos : 0 < den) (shift : ℕ) :
    num.log2 + shift ≤ (num * 2 ^ shift / den).log2 + 1 + den.log2 := by
  have num_size := (Nat.log2_eq_iff num_pos.ne').mp rfl
  have den_size := (Nat.log2_eq_iff den_pos.ne').mp rfl
  have bound : num * 2 ^ shift / den < 2 ^ ((num * 2 ^ shift / den).log2 + 1) :=
    Nat.lt_log2_self
  rw [Nat.div_lt_iff_lt_mul den_pos] at bound
  have powers : 2 ^ (num.log2 + shift) <
      2 ^ ((num * 2 ^ shift / den).log2 + 1 + (den.log2 + 1)) := by
    calc 2 ^ (num.log2 + shift) = 2 ^ num.log2 * 2 ^ shift := pow_add _ _ _
      _ ≤ num * 2 ^ shift := Nat.mul_le_mul_right _ num_size.1
      _ < 2 ^ ((num * 2 ^ shift / den).log2 + 1) * den := bound
      _ ≤ 2 ^ ((num * 2 ^ shift / den).log2 + 1) * 2 ^ (den.log2 + 1) :=
        Nat.mul_le_mul_left _ den_size.2.le
      _ = _ := (pow_add _ _ _).symm
  rw [Nat.pow_lt_pow_iff_right (by norm_num)] at powers
  omega

/-- A quotient is rounded once, whatever its size. -/
theorem rounded_quotient (format : Format) {m₁ m₂ : ℕ} (sign : Sign) (pos₁ : 0 < m₁)
    (pos₂ : 0 < m₂) (e₁ e₂ : ℤ) :
    let (m, e, accuracy) := divCore format m₁ e₁ m₂ e₂
    Rounded format sign (m₁ * 2 ^ e₁ / (m₂ * 2 ^ e₂))
      (roundWithAccuracy format sign m e accuracy) := by
  let target := min (e₁ - e₂)
    (format.targetExponent (totalExponent m₁ e₁ - totalExponent m₂ e₂))
  let shift := (e₁ - e₂ - target).toNat
  have shifted : (shift : ℤ) = e₁ - e₂ - target := Int.toNat_of_nonneg (by omega)
  have positive : (0 : ℝ) < m₁ := by exact_mod_cast pos₁
  have positive' : (0 : ℝ) < m₂ := by exact_mod_cast pos₂
  have value : (m₁ * 2 ^ e₁ / (m₂ * 2 ^ e₂) : ℝ) =
      ((m₁ * 2 ^ shift : ℕ) / m₂ : ℝ) * 2 ^ target := by
    have back : (2 : ℝ) ^ shift * 2 ^ target = 2 ^ e₁ / 2 ^ e₂ := by
      rw [← zpow_natCast, shifted, ← zpow_add₀ (by norm_num), ← zpow_sub₀ (by norm_num)]
      congr 1
      ring
    push_cast
    calc (m₁ * 2 ^ e₁ / (m₂ * 2 ^ e₂) : ℝ) = m₁ / m₂ * (2 ^ e₁ / 2 ^ e₂) := mul_div_mul_comm _ _ _ _
      _ = m₁ / m₂ * (2 ^ shift * 2 ^ target) := by rw [back]
      _ = m₁ * 2 ^ shift / m₂ * 2 ^ target := by ring
  have reads := reads_fraction (m₁ * 2 ^ shift) pos₂
  -- the quotient has at least as many bits as its target takes, or lies at the bottom
  have sized := log_quotient pos₁ pos₂ shift
  have same : divCore format m₁ e₁ m₂ e₂ = (m₁ * 2 ^ shift / m₂, target,
      accuracyOfFraction (m₁ * 2 ^ shift % m₂) m₂) := by
    simp only [divCore, Nat.shiftLeft_eq, target, shift]
  rw [same, value]
  dsimp only
  rcases Nat.eq_zero_or_pos (m₁ * 2 ^ shift / m₂) with lost | present
  · have low : target ≤ format.minExponent := by
      rw [lost, Nat.log2_zero] at sized
      simp only [target, Format.targetExponent, totalExponent, Format.mantissaBits] at shifted ⊢
      have wide := format.hm
      omega
    rw [lost] at reads ⊢
    exact rounded_below sign (by positivity) reads low
  · have coarse : target ≤
        format.targetExponent (totalExponent (m₁ * 2 ^ shift / m₂) target) := by
      simp only [target, Format.targetExponent, totalExponent] at shifted ⊢
      omega
    exact rounded_with_accuracy sign present reads coarse

/-! ## Square roots -/

/-- What is left over when a root is taken says where the exact root lies. It
never lies halfway. -/
theorem reads_root (m : ℕ) :
    let root := Nat.sqrt m
    Reads (.ofMantissaAndAccuracy root (if m - root * root = 0 then .exact
      else .inexact (if m - root * root ≤ root then .lt else .gt))) √m := by
  intro root
  have low : root * root ≤ m := Nat.sqrt_le m
  have high : m < (root + 1) * (root + 1) := Nat.lt_succ_sqrt m
  have nonneg : (0 : ℝ) ≤ root := Nat.cast_nonneg root
  have upper : √m < root + 1 := by
    rw [Real.sqrt_lt' (by linarith), sq]
    exact_mod_cast high
  split_ifs with whole near
  · have square : (m : ℝ) = root * root := by
      exact_mod_cast (by omega : m = root * root)
    simp only [Reads, ExtendedMantissa.ofMantissaAndAccuracy]
    rw [square, Real.sqrt_mul_self nonneg]
  · have above : ((root * root : ℕ) : ℝ) < m := by
      exact_mod_cast (by omega : root * root < m)
    have below : (m : ℝ) ≤ (root * root : ℕ) + root := by
      exact_mod_cast (by omega : m ≤ root * root + root)
    push_cast at above below
    change (root : ℝ) < _ ∧ _ < (root : ℝ) + 1 / 2
    rw [Real.lt_sqrt nonneg, Real.sqrt_lt' (by linarith)]
    constructor <;> nlinarith
  · have above : ((root * root : ℕ) : ℝ) + root + 1 ≤ m := by
      exact_mod_cast (by omega : root * root + root + 1 ≤ m)
    push_cast at above
    change (root : ℝ) + 1 / 2 < _ ∧ _ < (root : ℝ) + 1
    refine ⟨?_, upper⟩
    rw [Real.lt_sqrt (by linarith)]
    nlinarith

theorem log_root {m : ℕ} (pos : 0 < m) : m.log2 ≤ 2 * (Nat.sqrt m).log2 + 1 := by
  have above : m < (Nat.sqrt m + 1) * (Nat.sqrt m + 1) := Nat.lt_succ_sqrt m
  have size : Nat.sqrt m + 1 ≤ 2 ^ ((Nat.sqrt m).log2 + 1) := Nat.lt_log2_self
  have bound : m < 2 ^ (2 * (Nat.sqrt m).log2 + 1 + 1) := by
    calc m < (Nat.sqrt m + 1) * (Nat.sqrt m + 1) := above
      _ ≤ 2 ^ ((Nat.sqrt m).log2 + 1) * 2 ^ ((Nat.sqrt m).log2 + 1) := Nat.mul_le_mul size size
      _ = 2 ^ (2 * (Nat.sqrt m).log2 + 1 + 1) := by
        rw [← pow_add]
        congr 1
        ring
  exact Nat.le_of_lt_succ ((Nat.log2_lt pos.ne').mpr bound)

/-- A square root is rounded once. -/
theorem rounded_root (format : Format) {m : ℕ} (pos : 0 < m) (e : ℤ) :
    let (root, e', accuracy) := sqrtCore format m e
    Rounded format .positive √(m * 2 ^ e) (roundWithAccuracy format .positive root e' accuracy) := by
  let target := min (e.ediv 2) (format.targetExponent ((totalExponent m e + 1).ediv 2))
  let shift := (e - 2 * target).toNat
  have halves : e.ediv 2 = e / 2 := rfl
  have shifted : (shift : ℤ) = e - 2 * target := Int.toNat_of_nonneg (by omega)
  have shifted_pos : 0 < m * 2 ^ shift := by positivity
  have value : √(m * 2 ^ e) = √((m * 2 ^ shift : ℕ)) * 2 ^ target := by
    have square : (m * 2 ^ e : ℝ) = (m * 2 ^ shift : ℕ) * ((2 : ℝ) ^ target) ^ 2 := by
      rw [← zpow_natCast, ← zpow_mul]
      push_cast
      rw [mul_assoc, ← zpow_natCast, shifted, ← zpow_add₀ (by norm_num)]
      congr 2
      ring
    rw [square, Real.sqrt_mul (by positivity), Real.sqrt_sq (by positivity)]
  have sized := log_root shifted_pos
  have coarse : target ≤
      format.targetExponent (totalExponent (Nat.sqrt (m * 2 ^ shift)) target) := by
    have total : (totalExponent m e + 1).ediv 2 = (m.log2 + 1 + e + 1) / 2 := rfl
    rw [log2_shifted pos] at sized
    simp only [target, Format.targetExponent, total] at shifted ⊢
    unfold totalExponent
    omega
  have same : sqrtCore format m e = (Nat.sqrt (m * 2 ^ shift), target,
      if m * 2 ^ shift - Nat.sqrt (m * 2 ^ shift) * Nat.sqrt (m * 2 ^ shift) = 0 then .exact
      else .inexact (if m * 2 ^ shift - Nat.sqrt (m * 2 ^ shift) * Nat.sqrt (m * 2 ^ shift) ≤
        Nat.sqrt (m * 2 ^ shift) then .lt else .gt)) := by
    simp only [sqrtCore, Nat.shiftLeft_eq, target, shift]
  rw [same, value]
  exact rounded_with_accuracy .positive (Nat.sqrt_pos.mpr shifted_pos)
    (reads_root (m * 2 ^ shift)) coarse

/-- Only infinity has an infinite root. -/
theorem root_decoded {format : Format} (wide : 2 ≤ format.exponentBits) {n : ℕ} {u : UnpackedFloat}
    (decoded : Decoded format n u) :
    (pack format (sqrt format u)).toNat =
      if n < ceiling format then min (rank format √(magnitude format u)) (ceiling format)
      else ceiling format := by
  cases decoded with
  | zero least =>
    rw [if_pos (least ▸ ceiling_pos format), magnitude_zero, Real.sqrt_zero]
    simp [sqrt, pack_zero, rank]
  | finite fits _ below =>
    rw [if_pos below]
    exact pack_rounded wide (rounded_root format fits.pos _)
  | infinite top =>
    rw [if_neg (by omega)]
    exact pack_infinity

end Sentry.Rounding
