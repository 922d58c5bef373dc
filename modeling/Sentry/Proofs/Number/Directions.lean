import Sentry.Proofs.Number.Lengths

/-! When a direction vanishes. Rounding does not pass a power of two, so the
length of a vector is less than eight times its larger component, and the
quotient of the two does not underflow. A vector has a direction unless its
length is too short to tell, or runs off the format. -/
namespace Sentry
open Float.Model (Format UnpackedFloat)
open Rounding

variable {x y : Float32}

theorem absolute_pos_iff (size : IsSize x) : 0 < absolute x ↔ 0 < place x := by
  constructor
  · intro positive
    have decoded := size.decoded
    unfold absolute at positive
    generalize x.toModel.unpack = u at decoded positive
    cases decoded with
    | zero least => exact absurd positive (lt_irrefl _)
    | finite fits at_place below =>
      have := fits.pos
      omega
    | infinite top =>
      have := ceiling_pos .binary32
      omega
  · intro present
    rw [size_place size] at present
    by_contra flat
    rw [rank, if_pos (not_lt.mp flat)] at present
    exact lt_irrefl 0 present

theorem absolute_lt (left : IsSize x) (right : IsSize y) (lt : place x < place y) :
    absolute x < absolute y := by
  rw [size_place left, size_place right] at lt
  exact lt_of_not_ge fun le => lt.not_ge (rank_mono _ le)

/-! ## Lengths below a power of two -/

/-- A number that is stored for one below a power of two is below it too. -/
theorem absolute_le_power {exact : ℝ} {j : ℤ} (size : IsSize x)
    (below : place x < ceiling .binary32)
    (stored : place x = min (rank .binary32 exact) (ceiling .binary32)) (low : -149 ≤ j)
    (le : exact ≤ 2 ^ j) : absolute x ≤ 2 ^ j := by
  rcases Nat.eq_zero_or_pos (place x) with none | present
  · have flat : ¬ 0 < absolute x := mt (absolute_pos_iff size).mp none.not_gt
    exact (not_lt.mp flat).trans (by positivity)
  · have power : Exact .binary32 (2 ^ j) := by
      have short : Exact .binary32 ((1 : ℕ) * 2 ^ j) := exact_of_short one_pos (by decide) low
      rwa [Nat.cast_one, one_mul] at short
    apply exact_le_of_rank_le (size_exact size present below) power
    rw [← size_place size, stored]
    exact (min_le_left _ _).trans (rank_mono _ le)

variable {v : Vec}

theorem length_le_power (measured : Measured v) {k : ℤ} (low : -74 ≤ k)
    (small : ∀ c, c = v.x ∨ c = v.y → absolute c ≤ 2 ^ k) : absolute v.length ≤ 2 ^ (k + 1) := by
  have square : ∀ j : ℤ, ((2 : ℝ) ^ j) ^ 2 = 2 ^ (2 * j) := by
    intro j
    rw [mul_comm, zpow_mul]
    norm_cast
  have squares : ∀ c, c = v.x ∨ c = v.y → absolute (c * c) ≤ 2 ^ (2 * k) := by
    intro c component
    obtain ⟨finite, size, le⟩ := measured.part c component
    refine absolute_le_power size (le.trans_lt measured.below) (square_of_finite finite)
      (by omega) ?_
    rw [← square]
    exact pow_le_pow_left₀ (magnitude_nonneg _ _) (small c component) 2
  have sum : absolute v.lengthSquared ≤ 2 ^ (2 * k + 1) := by
    refine absolute_le_power measured.below.le measured.below measured.sum (by omega) ?_
    rw [zpow_add_one₀ (by norm_num)]
    linarith [squares v.x (.inl rfl), squares v.y (.inr rfl)]
  refine absolute_le_power measured.size measured.short measured.root (by omega) ?_
  rw [Real.sqrt_le_left (by positivity), square]
  exact sum.trans (zpow_le_zpow_right₀ (by norm_num) (by omega))

/-- Some component is more than an eighth of the length. -/
theorem exists_large_component (finite : v.length.isFinite = true)
    (long : ¬ v.length ≤ Vec.shortest) :
    ∃ c, (c = v.x ∨ c = v.y) ∧ absolute v.length < 8 * absolute c := by
  obtain ⟨size, far, -, -⟩ := length_bounds finite long
  have above : (2 : ℝ) ^ (-23 : ℤ) < absolute v.length := by
    rw [← absolute_shortest]
    exact absolute_lt (by decide) size far
  have positive : 0 < absolute v.length := lt_trans (by positivity) above
  let k := Int.log 2 (absolute v.length)
  have under : (2 : ℝ) ^ k ≤ absolute v.length := by
    exact_mod_cast Int.zpow_log_le_self (by norm_num) positive
  have beyond : absolute v.length < (2 : ℝ) ^ (k + 1) := by
    exact_mod_cast Int.lt_zpow_succ_log_self (by norm_num) (absolute v.length)
  have high : -23 ≤ k := by
    rw [← Int.zpow_le_iff_le_log (by norm_num) positive]
    exact_mod_cast above.le
  -- Parts of an eighth or less would leave the length below the power it reaches.
  by_contra small
  push Not at small
  have parts : ∀ c, c = v.x ∨ c = v.y → absolute c ≤ 2 ^ (k - 2) := by
    intro c component
    have eighth := small c component
    have split : (2 : ℝ) ^ (k + 1) = 8 * 2 ^ (k - 2) := by
      rw [show k + 1 = k - 2 + 3 by ring, zpow_add₀ (by norm_num)]
      norm_num
      ring
    linarith
  have bound := length_le_power (measured_of_finite finite) (by omega) parts
  have less : (2 : ℝ) ^ (k - 2 + 1) < 2 ^ k := zpow_lt_zpow_right₀ (by norm_num) (by omega)
  linarith

/-! ## Directions that vanish -/

theorem quotient_present (finite : x.isFinite = true) (size : IsSize y) (present : 0 < place y)
    (below : place y < ceiling .binary32) (large : absolute y < 8 * absolute x) :
    (x / y == 0) = false := by
  obtain ⟨sign, u, shape, decoded⟩ := quotient_decoded finite size present below
  have positive : 0 < absolute y := (absolute_pos_iff size).mpr present
  have eighth : 1 / 8 ≤ absolute x / absolute y := by
    rw [div_le_div_iff₀ (by norm_num) positive]
    linarith
  have least : 0 < rank .binary32 (1 / 8) := by
    have fits : Fits .binary32 8388608 (-26) := ⟨by decide, by decide, by decide, .inl (by decide)⟩
    have some_place := rank_of_fits fits
    norm_num at some_place ⊢
    omega
  have kept : 0 < min (rank .binary32 (absolute x / absolute y)) (ceiling .binary32) :=
    lt_min (least.trans_le (rank_mono _ eighth)) (ceiling_pos _)
  change ((x / y).toModel.unpack.compare _ == some Ordering.eq) = false
  rw [shape]
  cases decoded with
  | zero least => omega
  | finite => cases sign <;> rfl
  | infinite => cases sign <;> rfl

theorem unit_of_short (short : v.length ≤ Vec.shortest ∨ v.length.isFinite = false) :
    v.unit = Vec.zero := by
  unfold Vec.unit
  rw [if_pos]
  simpa using short

/-- A vector has a direction unless it is too short to have one, or its length
is not a finite number. -/
theorem unit_vanishes_iff (v : Vec) : v.unit.agrees Vec.zero = true ↔
    v.length ≤ Vec.shortest ∨ v.length.isFinite = false := by
  constructor
  · intro vanishes
    by_contra told
    obtain ⟨long, finite⟩ := not_or.mp told
    rw [Bool.not_eq_false] at finite
    obtain ⟨size, far, below, bounds⟩ := length_bounds finite long
    obtain ⟨c, component, large⟩ := exists_large_component finite long
    have present := quotient_present (bounds c component).1 size (Nat.zero_lt_of_lt far) below large
    have divided : v.unit = ⟨v.x / v.length, v.y / v.length⟩ := by
      simp [Vec.unit, long, finite]
      rfl
    rw [divided, Vec.agrees, Bool.and_eq_true] at vanishes
    rcases component with rfl | rfl
    · exact absurd vanishes.1 (Bool.eq_false_iff.mp present)
    · exact absurd vanishes.2 (Bool.eq_false_iff.mp present)
  · intro short
    rw [unit_of_short short]
    rfl

/-- A number that is no less than a positive one is a size. -/
theorem size_of_le (size : IsSize x) (present : 0 < place x) (le : x ≤ y) : IsSize y := by
  have stored : place y = (UnpackedFloat.pack .binary32 y.toModel.unpack).toNat :=
    congrArg BitVec.toNat (UnpackedFloat.pack_unpack_of_valid y.toModel.valid).symm
  have decoded := size.decoded
  rw [le_iff_compare32] at le
  generalize x.toModel.unpack = u at decoded le
  cases shape : y.toModel.unpack with
  | notANumber =>
    rw [shape] at le
    cases decoded <;> cases le
  | infinity sign =>
    rw [shape] at le stored
    cases sign with
    | positive => exact (stored.trans pack_infinity).le
    | negative => cases decoded <;> first | omega | cases le
  | zero sign =>
    rw [shape] at le
    cases decoded <;> first | omega | cases le
  | finite sign m e pos =>
    obtain ⟨-, fits, -⟩ := fits_of_finite wide_binary32 shape
    rw [shape] at le stored
    cases sign with
    | positive => exact (stored.trans (pack_fits wide_binary32 fits)).trans_le (min_le_right _ _)
    | negative => cases decoded <;> first | omega | cases le

/-- A vector that is longer than some tolerance has a direction, if the tolerance
is not too short itself and the length is a finite number. -/
theorem unit_present {tolerance : Float32} (long : Vec.shortest ≤ tolerance)
    (finite : v.length.isFinite = true) (far : ¬ v.length ≤ tolerance) :
    v.unit.agrees Vec.zero = false := by
  have shortest : IsSize Vec.shortest := by decide
  have some_place : 0 < place Vec.shortest := by decide
  have size := (measured_of_finite finite).size
  have tolerated := size_of_le shortest some_place long
  rw [le_iff_place size tolerated] at far
  rw [le_iff_place shortest tolerated] at long
  rw [Bool.eq_false_iff, Ne, unit_vanishes_iff, le_iff_place size shortest, finite]
  rintro (short | infinite)
  · omega
  · cases infinite

end Sentry
