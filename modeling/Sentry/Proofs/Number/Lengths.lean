import Sentry.Proofs.Number.Moment
import Sentry.Proofs.Number.Operations
import Sentry.Proofs.Number.Signs
import Sentry.Vec

/-! Lengths of vectors. The root of a rounded square is no less than the number
that was squared, unless the square was rounded off the format. So a length that
can be told from zero is no less than either component, and the components of a
direction lie between minus one and one. -/
namespace Sentry.Rounding
open Float.Model (Format UnpackedFloat)
open Float.Model.UnpackedFloat hiding round normalize

variable {format : Format}

/-! ## Roots of squares -/

/-- A power of two has an exact square. A larger significand leaves room for half
a gap below its square. -/
theorem rank_le_root {m : ℕ} {e : ℤ} {z : ℝ} (even : binade format % 2 = 0)
    (fits : Fits format m e) (normal : binade format ≤ m)
    (deep : format.minExponent ≤ 2 * e + format.mantissaBitsWithoutImplicit)
    (exact : Exact format z) (same : rank format z = rank format ((m * 2 ^ e) ^ 2)) :
    rank format (m * 2 ^ e) ≤ rank format √z := by
  have power : (binade format : ℝ) = 2 ^ (format.mantissaBitsWithoutImplicit : ℤ) := by
    simp [binade]
  have unit : (0 : ℝ) < 2 ^ e := by positivity
  have positive : (0 : ℝ) < m := by exact_mod_cast fits.pos
  rcases normal.eq_or_lt with least | larger
  · have square : ((m : ℝ) * 2 ^ e) ^ 2 =
        binade format * 2 ^ (2 * e + format.mantissaBitsWithoutImplicit) := by
      rw [← least, zpow_add₀ (by norm_num), ← power, mul_comm 2 e, zpow_mul]
      norm_cast
      ring
    have stored : Exact format (((m : ℝ) * 2 ^ e) ^ 2) := by
      rw [square]
      exact exact_of_short (binade_pos format) (by have := binade_pos format; omega) deep
    rw [exact_unique exact stored same, Real.sqrt_sq (by positivity)]
  · have short : (m : ℝ) < 2 * binade format := by exact_mod_cast fits.lt
    have long : (binade format : ℝ) + 1 ≤ m := by exact_mod_cast larger
    have gap : spacing format ((m * 2 ^ e) ^ 2) ≤
        2 * e + format.mantissaBitsWithoutImplicit + 1 := by
      have log : Int.log 2 (((m : ℝ) * 2 ^ e) ^ 2) <
          2 * (format.mantissaBitsWithoutImplicit + 1 + e) := by
        rw [← Int.lt_zpow_iff_log_lt (by norm_num) (by positivity), Nat.cast_ofNat, mul_comm 2,
          zpow_mul, zpow_add₀ (by norm_num), zpow_add_one₀ (by norm_num), ← power]
        norm_cast at short ⊢
        gcongr
        omega
      rw [spacing_eq]
      omega
    have below : ((m : ℝ) ^ 2 - binade format) * (2 ^ e) ^ 2 ≤ z := by
      have half := half_gap_below (by positivity) exact same
      have room : (2 : ℝ) ^ spacing format ((m * 2 ^ e) ^ 2) ≤
          2 * (binade format * (2 ^ e) ^ 2) := by
        calc (2 : ℝ) ^ spacing format ((m * 2 ^ e) ^ 2)
            ≤ 2 ^ (2 * e + format.mantissaBitsWithoutImplicit + 1) :=
              zpow_le_zpow_right₀ (by norm_num) gap
          _ = 2 * (binade format * (2 ^ e) ^ 2) := by
            rw [zpow_add_one₀ (by norm_num), zpow_add₀ (by norm_num), ← power, mul_comm 2 e,
              zpow_mul]
            norm_cast
            ring
      calc ((m : ℝ) ^ 2 - binade format) * (2 ^ e) ^ 2
          = (m * 2 ^ e) ^ 2 - binade format * (2 ^ e) ^ 2 := by ring
        _ ≤ z := by linarith
    have close : ((m : ℝ) - 1 / 2) * 2 ^ e < √z := by
      rw [Real.lt_sqrt (by nlinarith), mul_pow]
      refine lt_of_lt_of_le ?_ below
      gcongr
      nlinarith
    rcases le_or_gt ((m : ℝ) * 2 ^ e) √z with reached | under
    · exact rank_mono format reached
    · have inside : TakesIn format m e (√z / 2 ^ e) := by
        refine ⟨.inl ?_, .inl ?_, fun only => absurd only larger.ne'⟩
        · rw [div_lt_iff₀ unit, add_mul]
          linarith
        · rwa [lt_div_iff₀ unit]
      have taken := rank_of_takesIn even fits inside
      rw [div_mul_cancel₀ _ unit.ne'] at taken
      rw [taken, rank_of_fits fits]

end Sentry.Rounding

namespace Sentry
open Float.Model (Format UnpackedFloat)
open Float.Model.UnpackedFloat hiding round normalize
open Rounding

/-! ## Sizes -/

/-- The bits of a binary32 number, read as a natural number. -/
def place (x : Float32) : ℕ :=
  x.toBits.toNat

/-- Zero, a positive number, or infinity. -/
def IsSize (x : Float32) : Prop :=
  place x ≤ ceiling .binary32

/-- A number without its sign, as a real. -/
noncomputable def absolute (x : Float32) : ℝ :=
  magnitude .binary32 x.toModel.unpack

theorem wide_binary32 : 2 ≤ Format.binary32.exponentBits := by decide

variable {x y : Float32}

theorem IsSize.decoded (size : IsSize x) : Decoded .binary32 (place x) x.toModel.unpack :=
  decoded_unpack wide_binary32 size

theorem size_place (size : IsSize x) : place x = rank .binary32 (absolute x) :=
  (rank_magnitude wide_binary32 size.decoded).symm

theorem size_exact (size : IsSize x) (present : 0 < place x) (below : place x < ceiling .binary32) :
    Exact .binary32 (absolute x) :=
  exact_of_decoded size.decoded present below

theorem size_finite_iff (size : IsSize x) :
    x.isFinite = true ↔ place x < ceiling .binary32 :=
  finite_iff_decoded size.decoded

theorem le_iff_place (left : IsSize x) (right : IsSize y) : x ≤ y ↔ place x ≤ place y := by
  rw [le_iff_compare32, compare_decoded left.decoded right.decoded]
  exact Nat.isLE_compare

/-! ## Squares, sums and roots -/

/-- What a finite number is without its sign. -/
theorem finite_cases (finite : x.isFinite = true) : absolute x = 0 ∧ (∃ sign, x.toModel.unpack = .zero sign) ∨
    ∃ sign m e, ∃ fits : Fits .binary32 m e, x.toModel.unpack = .finite sign m e fits.pos ∧
      absolute x = m * 2 ^ e ∧ rank .binary32 (absolute x) < ceiling .binary32 := by
  change x.toModel.unpack.isFinite = true at finite
  unfold absolute
  cases shape : x.toModel.unpack with
  | notANumber => simp [shape, UnpackedFloat.isFinite] at finite
  | infinity sign => simp [shape, UnpackedFloat.isFinite] at finite
  | zero sign => exact .inl ⟨rfl, sign, rfl⟩
  | finite sign m e pos =>
    obtain ⟨-, fits, at_place⟩ := fits_of_finite wide_binary32 shape
    refine .inr ⟨sign, m, e, fits, rfl, rfl, ?_⟩
    rw [magnitude, rank_of_fits fits, at_place]
    exact unsigned_lt shape

theorem square_of_finite (finite : x.isFinite = true) :
    place (x * x) = min (rank .binary32 (absolute x ^ 2)) (ceiling .binary32) := by
  change (pack .binary32 (mul .binary32 x.toModel.unpack x.toModel.unpack)).toNat = _
  rcases finite_cases finite with ⟨none, sign, shape⟩ | ⟨sign, m, e, fits, shape, size, -⟩
  · have positive : sign * sign = .positive := by cases sign <;> rfl
    rw [none, shape]
    simp only [mul, positive, pack_zero]
    simp [rank]
  · have positive : sign * sign = .positive := by cases sign <;> rfl
    have long := product_long (by decide) fits fits
    have rounded := rounded_product .binary32 .positive fits.pos fits.pos e e long
    rw [size, sq, shape]
    simp only [mul, positive]
    exact pack_rounded wide_binary32 rounded

/-- A square is a size, or it is the square of no number. -/
theorem square_cases (x : Float32) : (x * x).toModel.unpack = .notANumber ∨
    IsSize (x * x) ∧ (place (x * x) < ceiling .binary32 → x.isFinite = true) := by
  change unpack .binary32 (pack .binary32 (mul .binary32 x.toModel.unpack x.toModel.unpack)) = _ ∨ _
  cases shape : x.toModel.unpack with
  | notANumber => exact .inl rfl
  | infinity sign =>
    right
    have infinite : place (x * x) = ceiling .binary32 := by
      change (pack .binary32 (mul .binary32 x.toModel.unpack x.toModel.unpack)).toNat = _
      rw [shape]
      cases sign <;> exact pack_infinity
    exact ⟨infinite.le, fun below => absurd infinite below.ne⟩
  | zero sign =>
    right
    have finite : x.isFinite = true := congrArg UnpackedFloat.isFinite shape
    exact ⟨(square_of_finite finite).trans_le (min_le_right _ _), fun _ => finite⟩
  | finite sign m e pos =>
    right
    have finite : x.isFinite = true := congrArg UnpackedFloat.isFinite shape
    exact ⟨(square_of_finite finite).trans_le (min_le_right _ _), fun _ => finite⟩

theorem sum_of_sizes (left : IsSize x) (right : IsSize y) :
    place (x + y) = min (rank .binary32 (absolute x + absolute y)) (ceiling .binary32) :=
  add_decoded wide_binary32 left.decoded right.decoded

theorem sum_of_nan (nan : x.toModel.unpack = .notANumber ∨ y.toModel.unpack = .notANumber) :
    (x + y).toModel.unpack = .notANumber := by
  have sum : add .binary32 x.toModel.unpack y.toModel.unpack = .notANumber := by
    rcases nan with left | right
    · rw [left]
      cases y.toModel.unpack <;> rfl
    · rw [right]
      cases x.toModel.unpack <;> rfl
  change unpack .binary32 (pack .binary32 (add .binary32 x.toModel.unpack y.toModel.unpack)) = _
  rw [sum]
  rfl

theorem root_of_nan (nan : x.toModel.unpack = .notANumber) : ¬ x.sqrt.isFinite = true := by
  change ¬ (unpack .binary32 (pack .binary32 (sqrt .binary32 x.toModel.unpack))).isFinite = true
  rw [nan]
  exact Bool.false_ne_true

/-- A finite root is the root of a finite size. -/
theorem root_of_size (size : IsSize x) (finite : x.sqrt.isFinite = true) :
    place x < ceiling .binary32 ∧ IsSize x.sqrt ∧
      place x.sqrt = min (rank .binary32 √(absolute x)) (ceiling .binary32) := by
  have root : place x.sqrt = if place x < ceiling .binary32 then
      min (rank .binary32 √(absolute x)) (ceiling .binary32) else ceiling .binary32 :=
    root_decoded wide_binary32 size.decoded
  have rooted : IsSize x.sqrt := by
    unfold IsSize
    rw [root]
    split
    · exact min_le_right _ _
    · exact le_rfl
  by_cases below : place x < ceiling .binary32
  · rw [if_pos below] at root
    exact ⟨below, rooted, root⟩
  · rw [if_neg below] at root
    rw [size_finite_iff rooted, root] at finite
    exact absurd finite (lt_irrefl _)

/-! ## Lengths -/

instance (x : Float32) : Decidable (IsSize x) :=
  inferInstanceAs (Decidable (_ ≤ _))

theorem absolute_shortest : absolute Vec.shortest = 2 ^ (-23 : ℤ) := by
  have shape : Vec.shortest.toModel.unpack = .finite .positive 8388608 (-46) (by decide) := rfl
  rw [absolute, shape, magnitude]
  norm_num

/-- A number above the shortest length is far from the lowest exponent. -/
theorem exponent_of_large {m : ℕ} {e : ℤ} (fits : Fits .binary32 m e)
    (large : (2 : ℝ) ^ (-23 : ℤ) < m * 2 ^ e) : -47 < e := by
  have short : (m : ℝ) < 2 ^ (24 : ℤ) := by exact_mod_cast fits.lt
  have bound : (2 : ℝ) ^ (-23 : ℤ) < 2 ^ (24 + e) := by
    rw [zpow_add₀ (by norm_num)]
    refine large.trans ?_
    gcongr
  have := (zpow_lt_zpow_iff_right₀ (by norm_num)).mp bound
  omega

/-- A number whose square goes into a sum is no larger than the root of the sum,
unless that is too short to tell. -/
theorem rank_le_root_of_sum {sum : Float32} (finite : x.isFinite = true) (square : IsSize (x * x))
    (size : IsSize sum) (below : place sum < ceiling .binary32)
    (above : place (x * x) ≤ place sum) (long : place Vec.shortest ≤ place sum.sqrt)
    (root : place sum.sqrt = min (rank .binary32 √(absolute sum)) (ceiling .binary32)) :
    rank .binary32 (absolute x) ≤ place sum.sqrt := by
  rcases finite_cases finite with ⟨none, -⟩ | ⟨sign, m, e, fits, -, value, stored⟩
  · simp [none, rank]
  rcases le_or_gt (absolute x) (absolute Vec.shortest) with small | large
  · refine le_trans (rank_mono _ small) ?_
    rw [← size_place (by decide)]
    exact long
  · rw [absolute_shortest, value] at large
    have high := exponent_of_large fits large
    have bottom : Format.binary32.minExponent = -149 := rfl
    have normal : binade .binary32 ≤ m := fits.normal.resolve_right (by omega)
    have squared : place (x * x) = rank .binary32 (absolute x ^ 2) := by
      have capped := square_of_finite finite
      omega
    have present : 0 < place (x * x) := by
      have least : Fits .binary32 8388608 (-69) := ⟨by decide, by decide, by decide, .inl (by decide)⟩
      have some_place := rank_of_fits least
      have rises : rank .binary32 ((8388608 : ℕ) * 2 ^ (-69 : ℤ)) ≤ rank .binary32 (absolute x ^ 2) := by
        apply rank_mono
        rw [value]
        calc ((8388608 : ℕ) : ℝ) * 2 ^ (-69 : ℤ) = (2 ^ (-23 : ℤ)) ^ 2 := by norm_num
          _ ≤ (m * 2 ^ e) ^ 2 := by gcongr
      omega
    have exact := size_exact square present (above.trans_lt below)
    have summed := size_exact size (present.trans_le above) below
    have same : rank .binary32 (absolute (x * x)) = rank .binary32 ((m * 2 ^ e) ^ 2) := by
      rw [← size_place square, squared, value]
    have ordered : absolute (x * x) ≤ absolute sum := by
      apply exact_le_of_rank_le exact summed
      rwa [← size_place square, ← size_place size]
    rw [root]
    refine le_min ?_ stored.le
    calc rank .binary32 (absolute x) = rank .binary32 (m * 2 ^ e) := by rw [value]
      _ ≤ rank .binary32 √(absolute (x * x)) :=
        rank_le_root (by decide) fits normal (by omega) exact same
      _ ≤ rank .binary32 √(absolute sum) := rank_mono _ (Real.sqrt_le_sqrt ordered)

/-! ## Directions -/

/-- A finite number between minus one and one. -/
structure IsComponent (x : Float32) : Prop where
  finite : x.isFinite = true
  low : -1 ≤ x
  high : x ≤ 1

theorem component_of_place {sign : Sign} {n : ℕ} {u : UnpackedFloat}
    (shape : x.toModel.unpack = withSign sign u) (decoded : Decoded .binary32 n u)
    (small : n ≤ place 1) : IsComponent x := by
  have one : Decoded .binary32 (place 1) (1 : Float32).toModel.unpack := IsSize.decoded (by decide)
  have minus : (-1 : Float32).toModel.unpack = withSign .negative (1 : Float32).toModel.unpack := rfl
  have below : n < ceiling .binary32 := small.trans_lt (by decide)
  have finite : x.isFinite = true := by
    change x.toModel.unpack.isFinite = true
    have unsigned := (finite_iff_decoded decoded).mpr below
    rw [shape]
    cases decoded <;> first | rfl | exact unsigned
  cases sign with
  | positive =>
    have same := withSign_positive decoded
    refine ⟨finite, ?_, ?_⟩
    · rw [le_iff_compare32, shape, same, minus]
      exact negative_le one decoded
    · rw [le_iff_compare32, shape, same, compare_decoded decoded one]
      exact Nat.isLE_compare.mpr small
  | negative =>
    refine ⟨finite, ?_, ?_⟩
    · rw [le_iff_compare32, shape, minus, compare_negative one decoded]
      exact Nat.isLE_compare.mpr small
    · rw [le_iff_compare32, shape]
      exact negative_le decoded one

/-- A quotient by a size is that of the exact numbers, rounded, with a sign. -/
theorem quotient_rounded (finite : x.isFinite = true) (size : IsSize y) (present : 0 < place y)
    (below : place y < ceiling .binary32) :
    ∃ (sign : Sign) (u : UnpackedFloat), Rounded .binary32 .positive (absolute x / absolute y) u ∧
      div .binary32 x.toModel.unpack y.toModel.unpack = withSign sign u := by
  have divisor := size.decoded
  rw [absolute.eq_def y]
  generalize y.toModel.unpack = v at divisor ⊢
  cases divisor with
  | zero least => omega
  | infinite top => omega
  | @finite m₂ e₂ fits₂ _ _ =>
    rcases finite_cases finite with ⟨none, sign, shape⟩ | ⟨sign, m₁, e₁, fits₁, shape, value, -⟩
    · have nothing : Rounded .binary32 .positive 0 (.zero .positive) := .vanished (by simp [rank])
      refine ⟨sign / .positive, .zero .positive, ?_, by rw [shape]; rfl⟩
      rwa [none, zero_div]
    · have rounded := rounded_quotient .binary32 .positive fits₁.pos fits₂.pos e₁ e₂
      refine ⟨sign / .positive, _, by rw [value]; exact rounded, ?_⟩
      rw [shape]
      exact roundWithAccuracy_withSign _ _ _ _

theorem quotient_decoded (finite : x.isFinite = true) (size : IsSize y) (present : 0 < place y)
    (below : place y < ceiling .binary32) :
    ∃ (sign : Sign) (u : UnpackedFloat), (x / y).toModel.unpack = withSign sign u ∧
      Decoded .binary32 (min (rank .binary32 (absolute x / absolute y)) (ceiling .binary32)) u := by
  obtain ⟨sign, u, rounded, quotient⟩ := quotient_rounded finite size present below
  have number : u ≠ .notANumber := by
    rintro rfl
    cases rounded
  have packed := pack_rounded wide_binary32 rounded
  refine ⟨sign, unpack .binary32 (pack .binary32 u), ?_, ?_⟩
  · rw [← unpack_pack_withSign sign number, ← quotient]
    rfl
  · rw [← packed]
    exact decoded_unpack wide_binary32 (packed.trans_le (min_le_right _ _))

theorem absolute_le (finite : x.isFinite = true) (size : IsSize y) (present : 0 < place y)
    (below : place y < ceiling .binary32) (le : rank .binary32 (absolute x) ≤ place y) :
    absolute x ≤ absolute y := by
  rcases finite_cases finite with ⟨none, -⟩ | ⟨-, m, e, fits, -, value, -⟩
  · rw [none]
    exact magnitude_nonneg _ _
  · rw [size_place size] at le
    exact exact_le_of_rank_le ⟨m, e, fits, value⟩ (size_exact size present below) le

theorem component_of_quotient (finite : x.isFinite = true) (size : IsSize y)
    (present : 0 < place y) (below : place y < ceiling .binary32)
    (le : rank .binary32 (absolute x) ≤ place y) : IsComponent (x / y) := by
  obtain ⟨sign, u, shape, decoded⟩ := quotient_decoded finite size present below
  have small : absolute x / absolute y ≤ 1 :=
    div_le_one_of_le₀ (absolute_le finite size present below le) (magnitude_nonneg _ _)
  have one : place 1 = rank .binary32 1 := by
    rw [size_place (by decide)]
    have shape : (1 : Float32).toModel.unpack = .finite .positive 8388608 (-23) (by decide) := rfl
    rw [absolute, shape, magnitude]
    norm_num
  refine component_of_place shape decoded ?_
  rw [one]
  exact (min_le_left _ _).trans (rank_mono _ small)

/-- The length of a vector, computed without an overflow. -/
structure Measured (v : Vec) : Prop where
  part : ∀ c, c = v.x ∨ c = v.y →
    c.isFinite = true ∧ IsSize (c * c) ∧ place (c * c) ≤ place v.lengthSquared
  sum : place v.lengthSquared =
    min (rank .binary32 (absolute (v.x * v.x) + absolute (v.y * v.y))) (ceiling .binary32)
  below : place v.lengthSquared < ceiling .binary32
  size : IsSize v.length
  short : place v.length < ceiling .binary32
  root : place v.length = min (rank .binary32 √(absolute v.lengthSquared)) (ceiling .binary32)

theorem measured_of_finite {v : Vec} (finite : v.length.isFinite = true) : Measured v := by
  obtain ⟨square_x, finite_x⟩ := (square_cases v.x).resolve_left fun nan =>
    absurd finite (root_of_nan (sum_of_nan (.inl nan)))
  obtain ⟨square_y, finite_y⟩ := (square_cases v.y).resolve_left fun nan =>
    absurd finite (root_of_nan (sum_of_nan (.inr nan)))
  have summed : place v.lengthSquared =
      min (rank .binary32 (absolute (v.x * v.x) + absolute (v.y * v.y))) (ceiling .binary32) :=
    sum_of_sizes square_x square_y
  obtain ⟨below, rooted, root⟩ := root_of_size (summed.trans_le (min_le_right _ _)) finite
  have grows : ∀ part, IsSize part → absolute part ≤
      absolute (v.x * v.x) + absolute (v.y * v.y) → place part ≤ place v.lengthSquared := by
    intro part part_size le
    rw [summed]
    refine le_min ?_ part_size
    rw [size_place part_size]
    exact rank_mono _ le
  have above_x := grows _ square_x (le_add_of_nonneg_right (magnitude_nonneg _ _))
  have above_y := grows _ square_y (le_add_of_nonneg_left (magnitude_nonneg _ _))
  refine ⟨?_, summed, below, rooted, (size_finite_iff rooted).mp finite, root⟩
  rintro c (rfl | rfl)
  · exact ⟨finite_x (above_x.trans_lt below), square_x, above_x⟩
  · exact ⟨finite_y (above_y.trans_lt below), square_y, above_y⟩

/-- A length that has a direction is finite and no less than either component. -/
theorem length_bounds {v : Vec} (finite : v.length.isFinite = true)
    (long : ¬ v.length ≤ Vec.shortest) :
    IsSize v.length ∧ place Vec.shortest < place v.length ∧
      place v.length < ceiling .binary32 ∧ ∀ c, c = v.x ∨ c = v.y →
        c.isFinite = true ∧ rank .binary32 (absolute c) ≤ place v.length := by
  have measured := measured_of_finite finite
  have shortest : IsSize Vec.shortest := by decide
  have far : place Vec.shortest < place v.length :=
    not_le.mp (mt (le_iff_place measured.size shortest).mpr long)
  refine ⟨measured.size, far, measured.short, ?_⟩
  intro c component
  obtain ⟨known, square, above⟩ := measured.part c component
  exact ⟨known, rank_le_root_of_sum known square measured.below.le measured.below above far.le
    measured.root⟩

/-- Both components are finite numbers between minus one and one. -/
structure Vec.IsDirection (v : Vec) : Prop where
  x : IsComponent v.x
  y : IsComponent v.y

theorem component_zero : IsComponent 0 := by
  constructor <;> decide

theorem zero_is_direction : Vec.zero.IsDirection :=
  ⟨component_zero, component_zero⟩

/-- Whatever a vector holds, its unit vector is a direction. -/
theorem unit_is_direction (v : Vec) : v.unit.IsDirection := by
  unfold Vec.unit
  split
  · exact zero_is_direction
  next told =>
    rw [Bool.or_eq_true, not_or, Bool.not_eq_true', Bool.not_eq_false, decide_eq_true_eq] at told
    obtain ⟨size, far, below, bounds⟩ := length_bounds told.2 told.1
    have present := Nat.zero_lt_of_lt far
    obtain ⟨finite_x, le_x⟩ := bounds v.x (.inl rfl)
    obtain ⟨finite_y, le_y⟩ := bounds v.y (.inr rfl)
    exact ⟨component_of_quotient finite_x size present below le_x,
      component_of_quotient finite_y size present below le_y⟩

end Sentry
