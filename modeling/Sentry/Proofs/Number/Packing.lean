import Sentry.Proofs.Number.Rounding

/-! The stored words of non-negative numbers. Read as a natural number, such a
word is the place of its number, and the largest of them, for infinity, caps
the others. So sums and comparisons of stored numbers come down to places. -/
namespace Sentry.Rounding
open Float.Model (Format UnpackedFloat totalExponent)
open Float.Model.UnpackedFloat hiding round normalize

/-- The word of infinity. -/
def ceiling (format : Format) : ℕ :=
  (2 ^ format.exponentBits - 1) * binade format

variable {format : Format}

theorem ceiling_pos (format : Format) : 0 < ceiling format := by
  have room : 2 ^ 1 ≤ 2 ^ format.exponentBits := Nat.pow_le_pow_right (by norm_num) format.he
  exact Nat.mul_pos (by omega) (binade_pos format)

/-! ## Packing -/

private theorem bias (format : Format) :
    (format.exponentBias : ℤ) + format.mantissaBitsWithoutImplicit = 1 - format.minExponent := by
  have positive : 1 ≤ 2 ^ (format.exponentBits - 1) := Nat.one_le_two_pow
  unfold Format.exponentBias Format.minExponent Format.mantissaBits
  push_cast [positive]
  ring

theorem components_toNat (e : BitVec format.exponentBits)
    (m : BitVec format.mantissaBitsWithoutImplicit) :
    (packComponents format .positive e m).toNat = e.toNat * binade format + m.toNat := by
  unfold packComponents binade
  rw [BitVec.toNat_append, BitVec.toNat_append, ← Nat.shiftLeft_add_eq_or_of_lt m.isLt,
    ← Nat.shiftLeft_add_eq_or_of_lt e.isLt]
  simp [Sign.toBitVec, Nat.shiftLeft_eq]

theorem pack_zero : (pack format (.zero .positive)).toNat = 0 := by
  simp [pack, packedZero, components_toNat]

theorem pack_infinity : (pack format (.infinity .positive)).toNat = ceiling format := by
  change (packedInfinity format .positive).toNat = ceiling format
  unfold packedInfinity
  rw [components_toNat, BitVec.neg_one_eq_allOnes, BitVec.toNat_allOnes]
  rfl

/-- A stored number is packed at its place, unless its exponent is too large. -/
theorem pack_fits (wide : 2 ≤ format.exponentBits) {m : ℕ} {e : ℤ} (fits : Fits format m e) :
    (pack format (.finite .positive m e fits.pos)).toNat =
      min ((e - format.minExponent).toNat * binade format + m) (ceiling format) := by
  have biased : (e + format.exponentBias + format.mantissaBitsWithoutImplicit).toNat =
      (e - format.minExponent).toNat + 1 := by
    have shift := bias format
    have low := fits.low
    omega
  have room : 2 ^ 2 ≤ 2 ^ format.exponentBits := Nat.pow_le_pow_right (by norm_num) wide
  obtain ⟨upper, normal⟩ := log2_of_fits fits
  have bottom : e = format.minExponent → (e - format.minExponent).toNat = 0 := by omega
  have lt := fits.lt
  have least := fits.normal
  unfold pack
  simp only [biased]
  generalize (e - format.minExponent).toNat = k at bottom ⊢
  split_ifs with huge full
  · have large : binade format ≤ m := least.resolve_right fun lowest => by
      have := bottom lowest
      omega
    have infinite : (packedInfinity format .positive).toNat = ceiling format := pack_infinity
    rw [infinite, ceiling, min_eq_right]
    calc (2 ^ format.exponentBits - 1) * binade format ≤ (k + 1) * binade format :=
          Nat.mul_le_mul_right _ (by omega)
      _ ≤ k * binade format + m := by rw [add_one_mul]; omega
  · have size : m.log2 = format.mantissaBitsWithoutImplicit := by
      unfold Format.mantissaBits at full
      omega
    have large : binade format ≤ m := by
      unfold binade
      exact (Nat.le_log2 fits.pos.ne').mp size.ge
    have rest : m % binade format = m - binade format := by
      rw [Nat.mod_eq_sub_mod large, Nat.mod_eq_of_lt (by omega)]
    rw [components_toNat, BitVec.toNat_ofNat, BitVec.toNat_ofNat, Nat.mod_eq_of_lt (by omega),
      show m % 2 ^ format.mantissaBitsWithoutImplicit = m - binade format from rest, min_eq_left]
    · rw [add_one_mul]
      omega
    · calc k * binade format + m ≤ (k + 2) * binade format := by rw [add_mul]; omega
        _ ≤ _ := Nat.mul_le_mul_right _ (by omega)
  · have lowest : e = format.minExponent := normal.resolve_left fun size => full (by
      unfold Format.mantissaBits
      omega)
    have small : m < binade format := by
      unfold binade
      rw [← Nat.log2_lt fits.pos.ne']
      unfold Format.mantissaBits at full
      omega
    have whole : m % 2 ^ format.mantissaBitsWithoutImplicit = m := Nat.mod_eq_of_lt small
    rw [bottom lowest, components_toNat, BitVec.toNat_ofNat m, whole, min_eq_left]
    · simp
    · calc 0 * binade format + m ≤ 1 * binade format := by omega
        _ ≤ _ := Nat.mul_le_mul_right _ (by omega)

theorem pack_rounded (wide : 2 ≤ format.exponentBits) {x : ℝ} {u : UnpackedFloat}
    (rounded : Rounded format .positive x u) :
    (pack format u).toNat = min (rank format x) (ceiling format) := by
  cases rounded with
  | vanished lowest => rw [lowest, Nat.zero_min, pack_zero]
  | kept fits place => rw [pack_fits wide fits, place]

/-- A whole number of units is packed at the place of the exact number. -/
theorem pack_normalize (wide : 2 ≤ format.exponentBits) (m : ℕ) (e : ℤ) :
    (pack format (UnpackedFloat.normalize format m e .positive)).toNat =
      min (rank format (m * 2 ^ e)) (ceiling format) := by
  unfold UnpackedFloat.normalize
  rcases Nat.eq_zero_or_pos m with rfl | pos
  · rw [show compare ((0 : ℕ) : ℤ) 0 = .eq from rfl]
    simp [pack_zero]
  · rw [show compare (m : ℤ) 0 = .gt from Int.compare_eq_gt.mpr (by omega)]
    exact pack_rounded wide (rounded_round .positive pos e)

/-! ## Unpacking -/

/-- What a word up to that of infinity stands for. -/
inductive Decoded (format : Format) (n : ℕ) : UnpackedFloat → Prop
  | zero (least : n = 0) : Decoded format n (.zero .positive)
  | finite {m : ℕ} {e : ℤ} (fits : Fits format m e)
      (place : (e - format.minExponent).toNat * binade format + m = n)
      (below : n < ceiling format) : Decoded format n (.finite .positive m e fits.pos)
  | infinite (top : n = ceiling format) : Decoded format n (.infinity .positive)

private theorem unpackMantissa_toNat (b : BitVec format.numBits) :
    (unpackMantissa b).toNat = b.toNat % binade format := by
  have positive := format.hm
  unfold unpackMantissa binade
  rw [BitVec.toNat_cast, BitVec.extractLsb_toNat, Nat.shiftRight_zero]
  congr 2
  omega

theorem unpackExponent_toNat (b : BitVec format.numBits) :
    (unpackExponent b).toNat = b.toNat / binade format % 2 ^ format.exponentBits := by
  have positive := format.he
  unfold unpackExponent binade
  rw [BitVec.toNat_cast, BitVec.extractLsb_toNat, Nat.shiftRight_eq_div_pow]
  congr 2
  omega

theorem unpackSign_toNat (b : BitVec format.numBits) :
    (unpackSign b).toNat = b.toNat / (2 ^ format.exponentBits * binade format) % 2 := by
  unfold unpackSign binade
  rw [BitVec.toNat_cast, BitVec.extractLsb_toNat, Nat.shiftRight_eq_div_pow, Nat.sub_self,
    pow_add, mul_comm]

variable {n k : ℕ} {a b : UnpackedFloat}

theorem decoded_is_number (decoded : Decoded format n a) : a.isNaN = false := by
  cases decoded <;> rfl

theorem finite_iff_decoded (decoded : Decoded format n a) :
    a.isFinite = true ↔ n < ceiling format := by
  cases decoded with
  | zero least => simp [UnpackedFloat.isFinite, least, ceiling_pos]
  | finite _ _ below => simp [UnpackedFloat.isFinite, below]
  | infinite top => simp [UnpackedFloat.isFinite, top]

theorem exact_of_decoded (decoded : Decoded format n a) (present : 0 < n)
    (below : n < ceiling format) : Exact format (magnitude format a) := by
  cases decoded with
  | zero least => omega
  | finite fits _ _ => exact ⟨_, _, fits, rfl⟩
  | infinite top => omega

theorem le_ceiling (decoded : Decoded format n a) : n ≤ ceiling format := by
  cases decoded with
  | zero least => omega
  | finite _ _ below => exact below.le
  | infinite top => exact top.le

theorem pack_decoded (wide : 2 ≤ format.exponentBits) (decoded : Decoded format n a) :
    (pack format a).toNat = n := by
  cases decoded with
  | zero least => rw [pack_zero, least]
  | finite fits place below => rw [pack_fits wide fits, place, min_eq_left below.le]
  | infinite top => rw [pack_infinity, top]

private theorem unpackSign_of_le {b : BitVec format.numBits} (le : b.toNat ≤ ceiling format) :
    Sign.ofBitVec (unpackSign b) = .positive := by
  have room := Nat.two_pow_pos format.exponentBits
  have below : ceiling format < 2 ^ format.exponentBits * binade format :=
    Nat.mul_lt_mul_of_pos_right (by omega) (binade_pos format)
  have zero : unpackSign b = 0#1 := by
    apply BitVec.eq_of_toNat_eq
    rw [unpackSign_toNat, Nat.div_eq_of_lt (le.trans_lt below)]
    rfl
  rw [zero]
  rfl

private theorem unpackExponent_of_le {b : BitVec format.numBits} (le : b.toNat ≤ ceiling format) :
    (unpackExponent b).toNat = b.toNat / binade format := by
  have room := Nat.two_pow_pos format.exponentBits
  have high : b.toNat / binade format ≤ 2 ^ format.exponentBits - 1 :=
    Nat.div_le_of_le_mul (by rw [mul_comm]; exact le)
  rw [unpackExponent_toNat, Nat.mod_eq_of_lt (by omega)]

/-- Every word up to that of infinity is the place of what it stands for. -/
theorem decoded_unpack (wide : 2 ≤ format.exponentBits) {b : BitVec format.numBits}
    (le : b.toNat ≤ ceiling format) : Decoded format b.toNat (unpack format b) := by
  have positive := binade_pos format
  have room : 2 ^ 2 ≤ 2 ^ format.exponentBits := Nat.pow_le_pow_right (by norm_num) wide
  have split := Nat.div_add_mod' b.toNat (binade format)
  have rest := Nat.mod_lt b.toNat positive
  have high : b.toNat / binade format ≤ 2 ^ format.exponentBits - 1 :=
    Nat.div_le_of_le_mul (by rw [mul_comm]; exact le)
  have sign := unpackSign_of_le le
  have mantissa := unpackMantissa_toNat b
  have exponent := unpackExponent_of_le le
  have top : unpackExponent b = -1#_ ↔ b.toNat / binade format = 2 ^ format.exponentBits - 1 := by
    rw [← exponent, ← BitVec.toNat_inj, BitVec.neg_one_eq_allOnes, BitVec.toNat_allOnes]
  have bottom : unpackExponent b = 0#_ ↔ b.toNat / binade format = 0 := by
    rw [← exponent, ← BitVec.toNat_inj, BitVec.toNat_zero]
  have flat : unpackMantissa b = 0#_ ↔ b.toNat % binade format = 0 := by
    rw [← mantissa, ← BitVec.toNat_inj, BitVec.toNat_zero]
  have shift := bias format
  unfold unpack
  simp only [sign]
  split_ifs with special whole lowest blank
  · rw [top] at special
    rw [flat] at whole
    exact .infinite (by rw [← split, special, whole]; rfl)
  · rw [top] at special
    rw [flat] at whole
    rw [special] at split
    unfold ceiling at le
    omega
  · rw [bottom] at lowest
    rw [flat] at blank
    exact .zero (by rw [← split, lowest, blank, zero_mul])
  · rw [bottom] at lowest
    rw [flat] at blank
    rw [lowest, zero_mul, zero_add] at split
    have fits : Fits format (unpackMantissa b).toNat ((unpackExponent b).toNat -
        (format.exponentBias + format.mantissaBitsWithoutImplicit) + 1) :=
      ⟨by omega, by omega, by omega, .inr (by omega)⟩
    have least : (((unpackExponent b).toNat : ℤ) - (format.exponentBias +
        format.mantissaBitsWithoutImplicit) + 1 - format.minExponent).toNat = 0 := by
      omega
    refine .finite fits (by rw [least]; omega) ?_
    calc b.toNat < 1 * binade format := by omega
      _ ≤ ceiling format := Nat.mul_le_mul_right _ (by omega)
  · rw [top] at special
    rw [bottom] at lowest
    have whole : (1#1 ++ unpackMantissa b).toNat = binade format + b.toNat % binade format := by
      rw [BitVec.toNat_append, ← Nat.shiftLeft_add_eq_or_of_lt (unpackMantissa b).isLt, mantissa]
      simp [Nat.shiftLeft_eq, binade]
    have fits : Fits format (1#1 ++ unpackMantissa b).toNat ((unpackExponent b).toNat -
        (format.exponentBias + format.mantissaBitsWithoutImplicit)) :=
      ⟨by omega, by omega, by omega, .inl (by omega)⟩
    have steps : (((unpackExponent b).toNat : ℤ) - (format.exponentBias +
        format.mantissaBitsWithoutImplicit) - format.minExponent).toNat =
          b.toNat / binade format - 1 := by
      omega
    refine .finite fits ?_ ?_
    · rw [steps, whole, Nat.sub_one_mul]
      have := Nat.le_mul_of_pos_left (binade format) (Nat.pos_of_ne_zero lowest)
      omega
    · calc b.toNat < (b.toNat / binade format + 1) * binade format := by rw [add_one_mul]; omega
        _ ≤ ceiling format := Nat.mul_le_mul_right _ (by omega)

/-! ## Sums -/

theorem rank_magnitude (wide : 2 ≤ format.exponentBits) (decoded : Decoded format n a) :
    rank format (magnitude format a) = n := by
  cases decoded with
  | zero least => simp [magnitude, rank, least]
  | finite fits place => rw [magnitude, rank_of_fits fits, place]
  | infinite top =>
    have room : 2 ^ 2 ≤ 2 ^ format.exponentBits := Nat.pow_le_pow_right (by norm_num) wide
    have positive := binade_pos format
    have fits : Fits format (binade format)
        (format.minExponent + (2 ^ format.exponentBits - 2 : ℕ)) :=
      ⟨positive, by omega, by omega, .inl le_rfl⟩
    rw [magnitude, rank_of_fits fits, top, ceiling, add_sub_cancel_left, Int.toNat_natCast,
      ← add_one_mul]
    congr 1
    omega

/-- A number brought to a lower exponent. -/
theorem aligned {least e : ℤ} (le : least ≤ e) (m : ℕ) :
    ((m * 2 ^ (e - least).toNat : ℕ) : ℝ) * 2 ^ least = m * 2 ^ e := by
  push_cast
  rw [← zpow_natCast, Int.toNat_of_nonneg (by omega), mul_assoc, ← zpow_add₀ (by norm_num),
    sub_add_cancel]

private theorem sum_finite (wide : 2 ≤ format.exponentBits) {m₁ m₂ : ℕ} {e₁ e₂ : ℤ}
    (pos₁ : 0 < m₁) (pos₂ : 0 < m₂) :
    (pack format (add format (.finite .positive m₁ e₁ pos₁) (.finite .positive m₂ e₂ pos₂))).toNat =
      min (rank format (m₁ * 2 ^ e₁ + m₂ * 2 ^ e₂)) (ceiling format) := by
  let least := min e₁ e₂
  let total := m₁ * 2 ^ (e₁ - least).toNat + m₂ * 2 ^ (e₂ - least).toNat
  have value : (total : ℝ) * 2 ^ least = m₁ * 2 ^ e₁ + m₂ * 2 ^ e₂ := by
    rw [← aligned (min_le_left e₁ e₂), ← aligned (min_le_right e₁ e₂), ← add_mul]
    simp only [total]
    push_cast
    rfl
  have sum : add format (.finite .positive m₁ e₁ pos₁) (.finite .positive m₂ e₂ pos₂) =
      UnpackedFloat.normalize format (total : ℤ) least .positive := by
    simp only [add, decreaseExponent, Nat.shiftLeft_eq, Sign.apply, total, least]
    push_cast
    rfl
  rw [sum, ← value]
  exact pack_normalize wide total least

/-- The word of a sum is the place nearest to the exact sum, or that of
infinity if the place does not exist. -/
theorem add_decoded (wide : 2 ≤ format.exponentBits) (left : Decoded format n a)
    (right : Decoded format k b) :
    (pack format (add format a b)).toNat =
      min (rank format (magnitude format a + magnitude format b)) (ceiling format) := by
  have here := rank_magnitude wide left
  have there := rank_magnitude wide right
  have grows : rank format (magnitude format a) ≤
      rank format (magnitude format a + magnitude format b) :=
    rank_mono format (le_add_of_nonneg_right (magnitude_nonneg format b))
  have grows' : rank format (magnitude format b) ≤
      rank format (magnitude format a + magnitude format b) :=
    rank_mono format (le_add_of_nonneg_left (magnitude_nonneg format a))
  cases left with
  | zero least =>
    have sum : add format (.zero .positive) b = b := by
      cases right <;> rfl
    rw [sum, pack_decoded wide right, magnitude_zero, zero_add, there,
      min_eq_left (le_ceiling right)]
  | finite fits place below =>
    cases right with
    | zero least' =>
      rw [magnitude_zero, add_zero, here, min_eq_left below.le]
      exact pack_decoded wide (.finite fits place below)
    | finite fits' => exact sum_finite wide fits.pos fits'.pos
    | infinite top => exact pack_infinity.trans (min_eq_right (top ▸ there ▸ grows')).symm
  | infinite top =>
    have sum : add format (.infinity .positive) b = .infinity .positive := by
      cases right <;> rfl
    rw [sum, pack_infinity, min_eq_right (top ▸ here ▸ grows)]

theorem add_negative_zero (decoded : Decoded format n a) :
    add format a (.zero .negative) = a := by
  cases decoded <;> rfl

/-! ## Comparisons -/

theorem place_lt {m₁ m₂ : ℕ} {e₁ e₂ : ℤ} (fits₁ : Fits format m₁ e₁)
    (fits₂ : Fits format m₂ e₂) (lt : e₁ < e₂) :
    (e₁ - format.minExponent).toNat * binade format + m₁ <
      (e₂ - format.minExponent).toNat * binade format + m₂ := by
  have low := fits₁.low
  have large : binade format ≤ m₂ := fits₂.normal.resolve_right (by omega)
  calc (e₁ - format.minExponent).toNat * binade format + m₁
      < ((e₁ - format.minExponent).toNat + 1) * binade format + binade format := by
        have := fits₁.lt
        rw [add_one_mul]
        omega
    _ ≤ _ := Nat.add_le_add (Nat.mul_le_mul_right _ (by omega)) large

private theorem compare_finite {m₁ m₂ : ℕ} {e₁ e₂ : ℤ} (fits₁ : Fits format m₁ e₁)
    (fits₂ : Fits format m₂ e₂) :
    (compare e₁ e₂).then (compare m₁ m₂) =
      compare ((e₁ - format.minExponent).toNat * binade format + m₁)
        ((e₂ - format.minExponent).toNat * binade format + m₂) := by
  rcases lt_trichotomy e₁ e₂ with lt | rfl | gt
  · rw [compare_lt_iff_lt.mpr lt, compare_lt_iff_lt.mpr (place_lt fits₁ fits₂ lt)]
    rfl
  · rw [compare_eq_iff_eq.mpr rfl]
    rcases lt_trichotomy m₁ m₂ with lt | rfl | gt
    · rw [compare_lt_iff_lt.mpr lt, compare_lt_iff_lt.mpr (by omega)]
      rfl
    · simp
    · rw [compare_gt_iff_gt.mpr gt, compare_gt_iff_gt.mpr (by omega)]
      rfl
  · rw [compare_gt_iff_gt.mpr gt, compare_gt_iff_gt.mpr (place_lt fits₂ fits₁ gt)]
    rfl

/-- Numbers compare as their words do. -/
theorem compare_decoded (left : Decoded format n a) (right : Decoded format k b) :
    a.compare b = some (compare n k) := by
  have bound := le_ceiling left
  have bound' := le_ceiling right
  have positive := ceiling_pos format
  cases left with
  | zero least =>
    cases right with
    | zero least' => simp [UnpackedFloat.compare, least, least']
    | finite fits place =>
      have := fits.pos
      rw [compare_lt_iff_lt.mpr (show n < k by omega)]
      rfl
    | infinite top =>
      rw [compare_lt_iff_lt.mpr (show n < k by omega)]
      rfl
  | finite fits place below =>
    cases right with
    | zero least' =>
      have := fits.pos
      rw [compare_gt_iff_gt.mpr (show n > k by omega)]
      rfl
    | finite fits' place' =>
      rw [← place, ← place', ← compare_finite fits fits']
      rfl
    | infinite top =>
      rw [compare_lt_iff_lt.mpr (show n < k by omega)]
      rfl
  | infinite top =>
    cases right with
    | zero least' =>
      rw [compare_gt_iff_gt.mpr (show n > k by omega)]
      rfl
    | finite fits' place' below' =>
      rw [compare_gt_iff_gt.mpr (show n > k by omega)]
      rfl
    | infinite top' =>
      rw [top, top', compare_eq_iff_eq.mpr rfl]
      rfl

end Sentry.Rounding
