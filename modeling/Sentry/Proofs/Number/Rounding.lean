import Mathlib
import Sentry.Number.Width

/-! Rounding to the nearest binary number keeps order. The places of a format
are numbered upward from zero, and the place of the rounded number is a
monotone function of the exact one; the shifts that round a significand reach
just this place. -/
namespace Sentry.Rounding
open Float.Model (Format UnpackedFloat totalExponent)
open Float.Model.UnpackedFloat hiding round normalize

/-! ## The nearest natural number -/

/-- The natural number nearest to a non-negative one; a half goes to the even
neighbour. -/
noncomputable def nearest (x : ℝ) : ℕ :=
  if x < ⌊x⌋₊ + 1 / 2 then ⌊x⌋₊
  else if x = ⌊x⌋₊ + 1 / 2 then ⌊x⌋₊ + ⌊x⌋₊ % 2
  else ⌊x⌋₊ + 1

theorem nearest_natCast (n : ℕ) : nearest n = n := by
  simp [nearest]

private theorem nearest_bounds (x : ℝ) : ⌊x⌋₊ ≤ nearest x ∧ nearest x ≤ ⌊x⌋₊ + 1 := by
  unfold nearest
  split_ifs <;> omega

theorem nearest_mono {x y : ℝ} (le : x ≤ y) : nearest x ≤ nearest y := by
  have floors : ⌊x⌋₊ ≤ ⌊y⌋₊ := Nat.floor_le_floor le
  rcases floors.lt_or_eq with apart | same
  · have upper := (nearest_bounds x).2
    have lower := (nearest_bounds y).1
    omega
  · unfold nearest
    rw [same]
    rcases lt_trichotomy y (⌊y⌋₊ + 1 / 2) with below | half | above
    · rw [if_pos (lt_of_le_of_lt le below), if_pos below]
    · rw [if_neg (not_lt.mpr half.ge), if_pos half]
      rcases (le.trans_eq half).lt_or_eq with below | level
      · rw [if_pos below]
        omega
      · rw [if_neg (not_lt.mpr level.ge), if_pos level]
    · rw [if_neg (not_lt.mpr above.le), if_neg above.ne']
      split_ifs <;> omega

/-- A significand with its two residual bits says where an exact number lies. -/
def Reads (em : ExtendedMantissa) (x : ℝ) : Prop :=
  match em.roundBit, em.stickyBit with
  | false, false => x = em.mantissa
  | false, true => em.mantissa < x ∧ x < em.mantissa + 1 / 2
  | true, false => x = em.mantissa + 1 / 2
  | true, true => em.mantissa + 1 / 2 < x ∧ x < em.mantissa + 1

theorem reads_bounds {em : ExtendedMantissa} {x : ℝ} (reads : Reads em x) :
    em.mantissa ≤ x ∧ x < em.mantissa + 1 := by
  obtain ⟨m, round, sticky⟩ := em
  cases round <;> cases sticky <;> simp only [Reads] at reads <;> constructor <;> linarith

theorem reads_rounded {em : ExtendedMantissa} {x : ℝ} (reads : Reads em x) :
    em.roundedMantissa = nearest x := by
  obtain ⟨low, high⟩ := reads_bounds reads
  have floor : ⌊x⌋₊ = em.mantissa :=
    (Nat.floor_eq_iff (le_trans (Nat.cast_nonneg _) low)).mpr ⟨low, high⟩
  unfold nearest
  rw [floor]
  obtain ⟨m, round, sticky⟩ := em
  cases round <;> cases sticky <;>
    simp only [Reads, ExtendedMantissa.roundedMantissa, ExtendedMantissa.accuracy,
      Accuracy.roundToNearestEven] at reads ⊢ <;>
    split_ifs <;> first | rfl | linarith

private theorem reads_half {em : ExtendedMantissa} {x : ℝ} (reads : Reads em x) :
    Reads em.shiftRightOne (x / 2) := by
  obtain ⟨m, round, sticky⟩ := em
  have parts : ((m / 2 : ℕ) : ℝ) * 2 + ((m % 2 : ℕ) : ℝ) = m := by
    exact_mod_cast Nat.div_add_mod' m 2
  rcases Nat.mod_two_eq_zero_or_one m with even | odd
  · rw [even, Nat.cast_zero] at parts
    cases round <;> cases sticky <;>
      simp only [Reads, ExtendedMantissa.shiftRightOne, even] at reads ⊢ <;>
      simp <;> first | linarith | (constructor <;> linarith)
  · rw [odd, Nat.cast_one] at parts
    cases round <;> cases sticky <;>
      simp only [Reads, ExtendedMantissa.shiftRightOne, odd] at reads ⊢ <;>
      simp <;> first | linarith | (constructor <;> linarith)

/-- Shifting loses no information that rounding needs. -/
theorem reads_shift {em : ExtendedMantissa} {x : ℝ} (reads : Reads em x) (count : ℕ) :
    Reads (em >>> count) (x / 2 ^ count) := by
  change Reads (count.repeat ExtendedMantissa.shiftRightOne em) _
  induction count with
  | zero => simpa [Nat.repeat] using reads
  | succ count ih =>
    rw [pow_succ, ← div_div]
    exact reads_half ih

/-! ## Places of a format -/

/-- The exponent of the gap between the neighbours of a positive number. -/
noncomputable def spacing (format : Format) (x : ℝ) : ℤ :=
  format.targetExponent (Int.log 2 x + 1)

/-- How many places there are between two powers of two. -/
def binade (format : Format) : ℕ :=
  2 ^ format.mantissaBitsWithoutImplicit

/-- The place of the number nearest to an exact one, counted upward from zero
as if exponents had no bound. -/
noncomputable def rank (format : Format) (x : ℝ) : ℕ :=
  if x ≤ 0 then 0
  else (spacing format x - format.minExponent).toNat * binade format +
    nearest (x / 2 ^ spacing format x)

/-- The size of a number. Infinity counts as the number that would come next. -/
noncomputable def magnitude (format : Format) : UnpackedFloat → ℝ
  | .finite _ m e _ => m * 2 ^ e
  | .infinity _ => binade format * 2 ^ (format.minExponent + (2 ^ format.exponentBits - 2 : ℕ))
  | _ => 0

/-- A significand and an exponent as a format stores them. Only at the lowest
exponent may the significand be short. -/
structure Fits (format : Format) (m : ℕ) (e : ℤ) : Prop where
  pos : 0 < m
  lt : m < 2 * binade format
  low : format.minExponent ≤ e
  normal : binade format ≤ m ∨ e = format.minExponent

/-- A real that a format stores, if its exponents had no bound above. -/
def Exact (format : Format) (x : ℝ) : Prop :=
  ∃ m e, Fits format m e ∧ x = m * 2 ^ e

variable {format : Format}

theorem binade_pos (format : Format) : 0 < binade format := Nat.two_pow_pos _

@[simp]
theorem magnitude_zero (format : Format) (sign : Sign) : magnitude format (.zero sign) = 0 := rfl

theorem magnitude_nonneg (format : Format) (a : UnpackedFloat) : 0 ≤ magnitude format a := by
  cases a <;> simp only [magnitude] <;> positivity

theorem spacing_ge (format : Format) (x : ℝ) : format.minExponent ≤ spacing format x :=
  le_max_right _ _

theorem spacing_eq (x : ℝ) : spacing format x =
    max (Int.log 2 x - format.mantissaBitsWithoutImplicit) format.minExponent := by
  unfold spacing Format.targetExponent Format.mantissaBits
  congr 1
  push_cast
  ring

private theorem scaled_lt (format : Format) (x : ℝ) :
    x / 2 ^ spacing format x < ((2 * binade format : ℕ) : ℝ) := by
  rw [div_lt_iff₀ (by positivity)]
  have below : x < 2 ^ (Int.log 2 x + 1) := Int.lt_zpow_succ_log_self (by norm_num) x
  have gap : Int.log 2 x + 1 ≤
      1 + (format.mantissaBitsWithoutImplicit : ℤ) + spacing format x := by
    rw [spacing_eq]
    omega
  calc x < (2 : ℝ) ^ (Int.log 2 x + 1) := below
    _ ≤ 2 ^ (1 + (format.mantissaBitsWithoutImplicit : ℤ) + spacing format x) :=
      zpow_le_zpow_right₀ (by norm_num) gap
    _ = ((2 * binade format : ℕ) : ℝ) * 2 ^ spacing format x := by
      rw [zpow_add₀ (by norm_num), zpow_add₀ (by norm_num)]
      simp [binade]

private theorem le_scaled {x : ℝ} (positive : 0 < x)
    (above : format.minExponent < spacing format x) :
    (binade format : ℝ) ≤ x / 2 ^ spacing format x := by
  rw [le_div_iff₀ (by positivity)]
  have exponent : (format.mantissaBitsWithoutImplicit : ℤ) + spacing format x = Int.log 2 x := by
    rw [spacing_eq] at above ⊢
    omega
  calc (binade format : ℝ) * 2 ^ spacing format x
      = 2 ^ ((format.mantissaBitsWithoutImplicit : ℤ) + spacing format x) := by
        rw [zpow_add₀ (by norm_num)]
        simp [binade]
    _ = (2 : ℝ) ^ Int.log 2 x := by rw [exponent]
    _ ≤ x := Int.zpow_log_le_self (by norm_num) positive

theorem nearest_scaled_le (format : Format) (x : ℝ) :
    nearest (x / 2 ^ spacing format x) ≤ 2 * binade format := by
  have bound := nearest_mono (scaled_lt format x).le
  rwa [nearest_natCast] at bound

theorem le_nearest_scaled {x : ℝ} (positive : 0 < x)
    (above : format.minExponent < spacing format x) :
    binade format ≤ nearest (x / 2 ^ spacing format x) := by
  have bound := nearest_mono (le_scaled positive above)
  rwa [nearest_natCast] at bound

@[simp]
theorem rank_zero (format : Format) : rank format 0 = 0 := if_pos le_rfl

theorem rank_of_pos (format : Format) {x : ℝ} (positive : 0 < x) :
    rank format x = (spacing format x - format.minExponent).toNat * binade format +
      nearest (x / 2 ^ spacing format x) :=
  if_neg (not_le.mpr positive)

/-- Rounding keeps order, also from one power of two to the next. -/
theorem rank_mono (format : Format) {x y : ℝ} (le : x ≤ y) : rank format x ≤ rank format y := by
  rcases le_or_gt x 0 with flat | positive
  · simp [rank, flat]
  have positive' : 0 < y := positive.trans_le le
  have gaps : spacing format x ≤ spacing format y := by
    have logs : Int.log 2 x ≤ Int.log 2 y := Int.log_mono_right positive le
    rw [spacing_eq, spacing_eq]
    omega
  rw [rank_of_pos format positive, rank_of_pos format positive']
  rcases gaps.lt_or_eq with apart | same
  · have lowest := spacing_ge format x
    have steps : (spacing format x - format.minExponent).toNat + 1 ≤
        (spacing format y - format.minExponent).toNat := by
      omega
    calc _ ≤ (spacing format x - format.minExponent).toNat * binade format + 2 * binade format :=
          Nat.add_le_add_left (nearest_scaled_le format x) _
      _ = ((spacing format x - format.minExponent).toNat + 1) * binade format +
          binade format := by ring
      _ ≤ _ := Nat.add_le_add (Nat.mul_le_mul_right _ steps)
          (le_nearest_scaled positive' (by omega))
  · rw [same]
    exact Nat.add_le_add_left (nearest_mono (by gcongr)) _

private theorem log_scaled {m : ℕ} {y : ℝ} (pos : 0 < m) (low : (m : ℝ) ≤ y) (high : y < m + 1)
    (e : ℤ) : Int.log 2 (y * 2 ^ e) = m.log2 + e := by
  have size := (Nat.log2_eq_iff pos.ne').mp rfl
  have lower : (2 : ℝ) ^ m.log2 ≤ m := by exact_mod_cast size.1
  have upper : (m : ℝ) + 1 ≤ 2 ^ (m.log2 + 1) := by exact_mod_cast size.2
  have positive : 0 < y * 2 ^ e := by
    have : (0 : ℝ) < m := by exact_mod_cast pos
    have : 0 < y := by linarith
    positivity
  apply le_antisymm
  · rw [← Int.lt_add_one_iff, ← Int.lt_zpow_iff_log_lt (by norm_num) positive]
    calc y * 2 ^ e < (2 : ℝ) ^ (m.log2 + 1) * 2 ^ e := by gcongr; linarith
      _ = ((2 : ℕ) : ℝ) ^ ((m.log2 : ℤ) + e + 1) := by
        rw [add_right_comm, zpow_add₀ (by norm_num)]
        norm_cast
  · rw [← Int.zpow_le_iff_le_log (by norm_num) positive]
    calc ((2 : ℕ) : ℝ) ^ ((m.log2 : ℤ) + e) = (2 : ℝ) ^ m.log2 * 2 ^ e := by
          rw [zpow_add₀ (by norm_num)]
          norm_cast
      _ ≤ y * 2 ^ e := by gcongr; linarith

theorem log2_shifted {m : ℕ} (pos : 0 < m) (shift : ℕ) :
    (m * 2 ^ shift).log2 = m.log2 + shift := by
  rw [Nat.log2_eq_iff (by positivity)]
  have size := (Nat.log2_eq_iff pos.ne').mp rfl
  constructor
  · rw [pow_add]
    exact Nat.mul_le_mul_right _ size.1
  · rw [add_right_comm, pow_add]
    exact Nat.mul_lt_mul_of_pos_right size.2 (by positivity)

theorem log2_of_fits {m : ℕ} {e : ℤ} (fits : Fits format m e) :
    m.log2 ≤ format.mantissaBitsWithoutImplicit ∧
      (m.log2 = format.mantissaBitsWithoutImplicit ∨ e = format.minExponent) := by
  have lt : m < 2 ^ (format.mantissaBitsWithoutImplicit + 1) := by
    rw [pow_succ']
    exact fits.lt
  have upper := (Nat.log2_lt fits.pos.ne').mpr lt
  refine ⟨by omega, fits.normal.imp_left fun normal => ?_⟩
  have lower := (Nat.le_log2 fits.pos.ne').mpr normal
  omega

private theorem spacing_of_fits {m : ℕ} {e : ℤ} (fits : Fits format m e) :
    spacing format (m * 2 ^ e) = e := by
  rw [spacing_eq, log_scaled fits.pos le_rfl (by linarith)]
  obtain ⟨upper, normal⟩ := log2_of_fits fits
  have low := fits.low
  omega

/-- A number that a format stores keeps its own place. -/
theorem rank_of_fits {m : ℕ} {e : ℤ} (fits : Fits format m e) :
    rank format (m * 2 ^ e) = (e - format.minExponent).toNat * binade format + m := by
  have positive : (0 : ℝ) < m := by exact_mod_cast fits.pos
  rw [rank_of_pos format (by positivity), spacing_of_fits fits,
    mul_div_cancel_right₀ _ (by positivity), nearest_natCast]

/-! ## Rounding reaches the nearest place -/

/-- A result of rounding: zero, or a stored number at the right place. -/
inductive Rounded (format : Format) (sign : Sign) (x : ℝ) : UnpackedFloat → Prop
  | vanished (lowest : rank format x = 0) : Rounded format sign x (.zero sign)
  | kept {m : ℕ} {e : ℤ} (fits : Fits format m e)
      (place : (e - format.minExponent).toNat * binade format + m = rank format x) :
      Rounded format sign x (.finite sign m e fits.pos)

/-- A rounded significand may have become one bit too long. Moving it back
costs nothing. -/
private theorem fits_of_carry {r : ℕ} {e : ℤ} (pos : 0 < r) (le : r ≤ 2 * binade format)
    (low : format.minExponent ≤ e) (normal : binade format ≤ r ∨ e = format.minExponent) :
    let carried := shiftToTargetExponent format r e .exact
    Fits format carried.1.mantissa carried.2 ∧
      (carried.2 - format.minExponent).toNat * binade format + carried.1.mantissa =
        (e - format.minExponent).toNat * binade format + r := by
  intro carried
  rcases le.lt_or_eq with lt | full
  · have fits : Fits format r e := ⟨pos, lt, low, normal⟩
    obtain ⟨upper, -⟩ := log2_of_fits fits
    have still : (format.targetExponent (totalExponent r e) - e).toNat = 0 := by
      unfold Format.targetExponent totalExponent Format.mantissaBits
      omega
    have same : carried.1.mantissa = r ∧ carried.2 = e := by
      simp only [carried, shiftToTargetExponent, shiftToExponent, still]
      exact ⟨rfl, by simp⟩
    rw [same.1, same.2]
    exact ⟨fits, rfl⟩
  · have power : r = 2 ^ (format.mantissaBitsWithoutImplicit + 1) := by
      rw [full, binade, pow_succ']
    have once : (format.targetExponent (totalExponent r e) - e).toNat = 1 := by
      rw [power]
      unfold Format.targetExponent totalExponent Format.mantissaBits
      rw [Nat.log2_two_pow]
      omega
    have halved : carried.1.mantissa = binade format ∧ carried.2 = e + 1 := by
      simp only [carried, shiftToTargetExponent, shiftToExponent, once]
      exact ⟨show r / 2 = binade format by omega, rfl⟩
    have positive := binade_pos format
    rw [halved.1, halved.2, full]
    refine ⟨⟨positive, by omega, by omega, .inl le_rfl⟩, ?_⟩
    rw [show (e + 1 - format.minExponent).toNat = (e - format.minExponent).toNat + 1 by omega]
    ring

private theorem carry_zero (e : ℤ) :
    (shiftToTargetExponent format 0 e .exact).1.mantissa = 0 := by
  have zero : Reads (ExtendedMantissa.ofMantissaAndAccuracy 0 .exact) 0 := by
    simp [Reads, ExtendedMantissa.ofMantissaAndAccuracy]
  have low := (reads_bounds (reads_shift zero
    (format.targetExponent (totalExponent 0 e) - e).toNat)).1
  rw [zero_div] at low
  exact_mod_cast le_antisymm low (Nat.cast_nonneg _)

/-- Rounding a significand that is known up to its residual bits, to the gap of
the exact number. -/
private theorem rounded_to_gap {m : ℕ} {e : ℤ} {accuracy : Accuracy} {y : ℝ} (sign : Sign)
    (positive : 0 < y) (reads : Reads (.ofMantissaAndAccuracy m accuracy) y)
    (target : spacing format (y * 2 ^ e) = format.targetExponent (totalExponent m e))
    (coarse : e ≤ format.targetExponent (totalExponent m e)) :
    Rounded format sign (y * 2 ^ e) (roundWithAccuracy format sign m e accuracy) := by
  have here : 0 < y * 2 ^ e := by positivity
  let first := shiftToTargetExponent format m e accuracy
  have exponent : first.2 = spacing format (y * 2 ^ e) := by
    simp only [first, shiftToTargetExponent, shiftToExponent, target]
    omega
  have scaled : y / 2 ^ (format.targetExponent (totalExponent m e) - e).toNat =
      y * 2 ^ e / 2 ^ spacing format (y * 2 ^ e) := by
    rw [target, ← zpow_natCast, Int.toNat_of_nonneg (by omega), zpow_sub₀ (by norm_num),
      div_div_eq_mul_div]
  have rounded :
      first.1.roundedMantissa = nearest (y * 2 ^ e / 2 ^ spacing format (y * 2 ^ e)) := by
    rw [← scaled]
    exact reads_rounded (reads_shift reads _)
  have normal : binade format ≤ first.1.roundedMantissa ∨ first.2 = format.minExponent := by
    rcases (spacing_ge format (y * 2 ^ e)).lt_or_eq with above | bottom
    · exact .inl (rounded ▸ le_nearest_scaled here above)
    · exact .inr (exponent.trans bottom.symm)
  have place := rank_of_pos format here
  rw [← rounded, ← exponent] at place
  unfold roundWithAccuracy
  let carried := shiftToTargetExponent format first.1.roundedMantissa first.2 .exact
  change Rounded format sign _ (if h : carried.1.mantissa = 0 then .zero sign
    else .finite sign carried.1.mantissa carried.2 (Nat.pos_of_ne_zero h))
  rcases Nat.eq_zero_or_pos first.1.roundedMantissa with lost | present
  · have gone : carried.1.mantissa = 0 := by
      simp only [carried, lost]
      exact carry_zero _
    rw [dif_pos gone]
    have positive := binade_pos format
    have bottom : first.2 = format.minExponent := normal.resolve_left (by omega)
    exact .vanished (by rw [place, lost, bottom]; simp)
  · obtain ⟨fits, total⟩ := fits_of_carry present (rounded ▸ nearest_scaled_le format _)
      (exponent ▸ spacing_ge format _) normal
    rw [dif_neg fits.pos.ne']
    exact .kept fits (total.trans place.symm)

private theorem mantissa_with_accuracy (m : ℕ) (accuracy : Accuracy) :
    (ExtendedMantissa.ofMantissaAndAccuracy m accuracy).mantissa = m := by
  unfold ExtendedMantissa.ofMantissaAndAccuracy
  split <;> rfl

/-- Rounding a significand that is known up to its residual bits. -/
theorem rounded_with_accuracy {m : ℕ} {e : ℤ} {accuracy : Accuracy} {y : ℝ} (sign : Sign)
    (pos : 0 < m) (reads : Reads (.ofMantissaAndAccuracy m accuracy) y)
    (coarse : e ≤ format.targetExponent (totalExponent m e)) :
    Rounded format sign (y * 2 ^ e) (roundWithAccuracy format sign m e accuracy) := by
  obtain ⟨low, high⟩ := reads_bounds reads
  rw [mantissa_with_accuracy] at low high
  have positive : (0 : ℝ) < m := by exact_mod_cast pos
  have target : spacing format (y * 2 ^ e) = format.targetExponent (totalExponent m e) := by
    unfold spacing totalExponent
    rw [log_scaled pos low high]
    congr 1
    ring
  exact rounded_to_gap sign (positive.trans_le low) reads target coarse

/-- Rounding what is left of a number when no bit of its significand is. -/
theorem rounded_below {e : ℤ} {accuracy : Accuracy} {y : ℝ} (sign : Sign) (positive : 0 < y)
    (reads : Reads (.ofMantissaAndAccuracy 0 accuracy) y) (low : e ≤ format.minExponent) :
    Rounded format sign (y * 2 ^ e) (roundWithAccuracy format sign 0 e accuracy) := by
  have bottom : format.targetExponent (totalExponent 0 e) = format.minExponent := by
    unfold Format.targetExponent totalExponent Format.mantissaBits
    rw [Nat.log2_zero]
    omega
  have small : y < 1 := by simpa [mantissa_with_accuracy] using (reads_bounds reads).2
  have log : Int.log 2 (y * 2 ^ e) < e := by
    rw [← Int.lt_zpow_iff_log_lt (by norm_num) (by positivity), Nat.cast_ofNat]
    exact mul_lt_of_lt_one_left (by positivity) small
  have target : spacing format (y * 2 ^ e) = format.targetExponent (totalExponent 0 e) := by
    rw [bottom, spacing_eq]
    omega
  exact rounded_to_gap sign positive reads target (bottom ▸ low)

/-- Rounding an exact significand, whatever its exponent. -/
theorem rounded_round {m : ℕ} (sign : Sign) (pos : 0 < m) (e : ℤ) :
    Rounded format sign (m * 2 ^ e) (UnpackedFloat.round format sign m e) := by
  let lift := (e - format.targetExponent (totalExponent m e)).toNat
  have log := log2_shifted pos lift
  have total : totalExponent (m * 2 ^ lift) (e - lift) = totalExponent m e := by
    unfold totalExponent
    rw [log]
    push_cast
    ring
  have reads : Reads (.ofMantissaAndAccuracy (m * 2 ^ lift) .exact) ((m * 2 ^ lift : ℕ) : ℝ) := by
    simp [Reads, ExtendedMantissa.ofMantissaAndAccuracy]
  have rounded := rounded_with_accuracy sign (by positivity) reads
    (show e - lift ≤ format.targetExponent (totalExponent (m * 2 ^ lift) (e - lift)) by
      rw [total]; omega)
  have value : ((m * 2 ^ lift : ℕ) : ℝ) * 2 ^ (e - lift) = m * 2 ^ e := by
    rw [zpow_sub₀ (by norm_num), zpow_natCast]
    push_cast
    field_simp
  rw [value] at rounded
  unfold UnpackedFloat.round decreaseExponent
  simpa only [Nat.shiftLeft_eq] using rounded

end Sentry.Rounding
