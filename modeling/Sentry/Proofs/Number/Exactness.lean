import Sentry.Proofs.Number.Lengths

/-! Results that need no rounding. A real with a short significand is stored as it
is, and so are sums and products of numbers whose exact result has one. The sign of
a number is kept apart, so that zeros are told from each other. -/
namespace Sentry.Rounding
open Float.Model (Format UnpackedFloat)
open Float.Model.UnpackedFloat hiding round normalize

variable {format : Format} {n k : ℕ} {a b : UnpackedFloat}

/-! ## Sums and products -/

private theorem normalize_apply (sign : Sign) {t : ℤ} (pos : 0 < t) (e : ℤ) :
    UnpackedFloat.normalize format (sign.apply t) e .positive =
      withSign sign (UnpackedFloat.normalize format t e .positive) := by
  unfold UnpackedFloat.normalize
  rw [compare_gt_iff_gt.mpr pos]
  cases sign with
  | positive =>
    have same : Sign.positive.apply t = t := rfl
    rw [same, compare_gt_iff_gt.mpr pos]
    exact round_withSign _ _ _
  | negative =>
    have turned : Sign.negative.apply t = -t := rfl
    rw [turned, compare_lt_iff_lt.mpr (neg_lt_zero.mpr pos), neg_neg]
    exact round_withSign _ _ _

private theorem apply_add (sign : Sign) (s t : ℤ) :
    sign.apply s + sign.apply t = sign.apply (s + t) := by
  cases sign with
  | positive => rfl
  | negative => exact (neg_add s t).symm

/-- Numbers of one sign add up like those without it. -/
theorem add_withSign (sign : Sign) (left : Decoded format n a) (right : Decoded format k b) :
    add format (withSign sign a) (withSign sign b) = withSign sign (add format a b) := by
  cases left with
  | zero least => cases right <;> cases sign <;> rfl
  | infinite top => cases right <;> cases sign <;> rfl
  | finite fits place below =>
    cases right with
    | zero least => rfl
    | infinite top => rfl
    | finite fits' place' below' =>
      have pos := fits.pos
      have pos' := fits'.pos
      simp only [withSign, add, decreaseExponent, apply_add, Nat.shiftLeft_eq]
      apply normalize_apply
      positivity

/-- A number without a sign leaves the sign of a product to the other factor. -/
theorem mul_withSign (sign : Sign) (left : Decoded format n a) (right : Decoded format k b) :
    mul format a (withSign sign b) = withSign sign (mul format a b) := by
  cases left with
  | zero least => cases right <;> cases sign <;> rfl
  | infinite top => cases right <;> cases sign <;> rfl
  | finite fits place below =>
    cases right with
    | zero least => cases sign <;> rfl
    | infinite top => cases sign <;> rfl
    | finite fits' place' below' =>
      have same : Sign.positive * sign = sign := by cases sign <;> rfl
      change roundWithAccuracy format (.positive * sign) _ _ _ = _
      rw [same]
      exact roundWithAccuracy_withSign _ _ _ _

/-- The place of a product of finite numbers is that of the exact product. -/
theorem mul_decoded (wide : 2 ≤ format.exponentBits) (bottom : format.minExponent ≤ 0)
    (left : Decoded format n a) (right : Decoded format k b) (below : n < ceiling format)
    (below' : k < ceiling format) :
    (pack format (mul format a b)).toNat =
      min (rank format (magnitude format a * magnitude format b)) (ceiling format) := by
  have nothing : (pack format (.zero .positive)).toNat =
      min (rank format 0) (ceiling format) := by
    rw [pack_zero, rank_zero, Nat.zero_min]
  cases left with
  | infinite top => exact absurd top below.ne
  | zero least =>
    rw [magnitude_zero, zero_mul]
    cases right with
    | infinite top => exact absurd top below'.ne
    | zero least' => exact nothing
    | finite fits' place' _ => exact nothing
  | finite fits place _ =>
    cases right with
    | infinite top => exact absurd top below'.ne
    | zero least' =>
      rw [magnitude_zero, mul_zero]
      exact nothing
    | finite fits' place' _ =>
      have long := product_long bottom fits fits'
      exact pack_rounded wide (rounded_product format .positive fits.pos fits'.pos _ _ long)

/-! ## Held reals -/

/-- A real that a format stores without rounding and without overflow. -/
def Held (format : Format) (r : ℝ) : Prop :=
  r = 0 ∨ Exact format r ∧ rank format r < ceiling format

theorem held_of_short {m : ℕ} {e : ℤ} (short : m < 2 ^ 53) (low : -1074 ≤ e) (high : e ≤ 970) :
    Held .binary64 (m * 2 ^ e) := by
  rcases Nat.eq_zero_or_pos m with rfl | pos
  · exact .inl (by simp)
  · refine .inr ⟨exact_of_short pos short low, ?_⟩
    have fits : Fits .binary64 (2 ^ 52) 971 := ⟨by decide, by decide, by decide, .inl le_rfl⟩
    have bound : (m * 2 ^ e : ℝ) ≤ ((2 ^ 52 : ℕ) : ℝ) * 2 ^ (971 : ℤ) := by
      have small : (m : ℝ) ≤ 2 ^ 53 := by exact_mod_cast short.le
      have power : (2 : ℝ) ^ e ≤ 2 ^ (970 : ℤ) := zpow_le_zpow_right₀ (by norm_num) high
      calc (m * 2 ^ e : ℝ) ≤ 2 ^ 53 * 2 ^ (970 : ℤ) := by gcongr
        _ = 2 ^ 52 * (2 ^ (970 : ℤ) * 2) := by ring
        _ = ((2 ^ 52 : ℕ) : ℝ) * 2 ^ (971 : ℤ) := by
          rw [← zpow_add_one₀ (by norm_num)]
          norm_num
    refine (rank_mono _ bound).trans_lt ?_
    rw [rank_of_fits fits]
    decide +kernel

theorem rank_held {r : ℝ} (held : Held format r) : rank format r < ceiling format := by
  rcases held with rfl | ⟨-, below⟩
  · rw [rank_zero]
    exact ceiling_pos format
  · exact below

/-- The number at the place of a held real is that real. -/
theorem magnitude_held {r : ℝ} (wide : 2 ≤ format.exponentBits) (held : Held format r)
    (decoded : Decoded format (rank format r) a) : magnitude format a = r := by
  rcases held with rfl | ⟨exact, below⟩
  · rw [rank_zero] at decoded
    cases decoded with
    | zero least => rfl
    | finite fits stored below =>
      have := fits.pos
      omega
    | infinite top => exact absurd top (ceiling_pos format).ne
  · exact exact_unique (exact_of_decoded decoded (rank_exact_pos exact) below) exact
      (rank_magnitude wide decoded)

end Sentry.Rounding

namespace Sentry
open Float.Model (Format UnpackedFloat)
open Float.Model.UnpackedFloat hiding round normalize
open Rounding

/-- A clock reading or its negative: a sign, and a real without it. -/
def Shows (x : Float) (sign : Sign) (r : ℝ) : Prop :=
  ∃ u, x.toModel.unpack = withSign sign u ∧ Decoded .binary64 (rank .binary64 r) u ∧
    rank .binary64 r < ceiling .binary64 ∧ magnitude .binary64 u = r

variable {x y : Float} {sign : Sign} {r s : ℝ}

/-- What is packed at the place of a held real shows it. -/
theorem shows_of_place {u : UnpackedFloat}
    (stored : x.toModel.unpack = unpack .binary64 (pack .binary64 (withSign sign u)))
    (place : (pack .binary64 u).toNat = min (rank .binary64 r) (ceiling .binary64))
    (held : Held .binary64 r) : Shows x sign r := by
  have below := rank_held held
  rw [min_eq_left below.le] at place
  have number : u ≠ .notANumber := by
    rintro rfl
    exact absurd (place.trans_lt below) (by decide)
  have decoded := decoded_unpack wide_binary64 (place.trans_le below.le)
  rw [place] at decoded
  refine ⟨unpack .binary64 (pack .binary64 u), ?_, decoded, below,
    magnitude_held wide_binary64 held decoded⟩
  rw [stored, unpack_pack_withSign sign number]

theorem magnitude_shown (shows : Shows x sign r) : magnitude .binary64 x.toModel.unpack = r := by
  obtain ⟨u, shape, -, -, value⟩ := shows
  rw [shape, magnitude_withSign, value]

/-- A number is known by its sign and by what it is without it. -/
theorem shows_unique (left : Shows x sign r) (right : Shows y sign r) : x = y := by
  obtain ⟨u, shape, decoded, -⟩ := left
  obtain ⟨u', shape', decoded', -⟩ := right
  have number {v : UnpackedFloat} : Decoded .binary64 (rank .binary64 r) v → v ≠ .notANumber := by
    rintro decoded rfl
    cases decoded
  have place := pack_decoded wide_binary64 decoded
  have same : pack .binary64 u = pack .binary64 u' :=
    BitVec.eq_of_toNat_eq (place.trans (pack_decoded wide_binary64 decoded').symm)
  have bits : pack .binary64 x.toModel.unpack = pack .binary64 y.toModel.unpack := by
    rw [shape, shape', pack_withSign sign (number decoded), pack_withSign sign (number decoded'),
      same]
  apply eq_of_word_eq
  have left : pack .binary64 x.toModel.unpack = x.toModel.toBits.toBitVec :=
    pack_unpack_of_valid x.toModel.valid
  have right : pack .binary64 y.toModel.unpack = y.toModel.toBits.toBitVec :=
    pack_unpack_of_valid y.toModel.valid
  rw [left, right] at bits
  exact congrArg BitVec.toNat bits

/-- A sum of one sign is exact if it can be held. -/
theorem shows_sum (left : Shows x sign r) (right : Shows y sign s) (held : Held .binary64 (r + s)) :
    Shows (x + y) sign (r + s) := by
  obtain ⟨u, shape, decoded, -, value⟩ := left
  obtain ⟨v, shape', decoded', -, value'⟩ := right
  have place := add_decoded wide_binary64 decoded decoded'
  rw [value, value'] at place
  refine shows_of_place ?_ place held
  change unpack .binary64 (pack .binary64 (add .binary64 x.toModel.unpack y.toModel.unpack)) = _
  rw [shape, shape', add_withSign sign decoded decoded']

theorem shows_product (left : Shows x .positive r) (right : Shows y sign s)
    (held : Held .binary64 (r * s)) : Shows (x * y) sign (r * s) := by
  obtain ⟨u, shape, decoded, below, value⟩ := left
  obtain ⟨v, shape', decoded', below', value'⟩ := right
  have place := mul_decoded wide_binary64 (by decide) decoded decoded' below below'
  rw [value, value'] at place
  refine shows_of_place ?_ place held
  change unpack .binary64 (pack .binary64 (mul .binary64 x.toModel.unpack y.toModel.unpack)) = _
  rw [shape, shape', withSign_positive decoded, mul_withSign sign decoded decoded']

/-! ## Conversions -/

/-- A finite binary32 number has a short significand. -/
theorem absolute_short {d : Float32} (finite : d.isFinite = true) :
    ∃ (m : ℕ) (e : ℤ), m < 2 ^ 24 ∧ -149 ≤ e ∧ e ≤ 104 ∧ absolute d = m * 2 ^ e := by
  rcases finite_cases finite with ⟨none, -⟩ | ⟨-, m, e, fits, -, value, stored⟩
  · exact ⟨0, 0, by norm_num, by norm_num, by norm_num, by rw [none]; norm_num⟩
  · refine ⟨m, e, fits.lt, fits.low, ?_, value⟩
    rw [value, rank_of_fits fits] at stored
    have normal : 2 ^ 23 ≤ m ∨ e = -149 := fits.normal
    have limit : (e - -149).toNat * 2 ^ 23 + m < 255 * 2 ^ 23 := stored
    omega

theorem held_absolute {d : Float32} (finite : d.isFinite = true) : Held .binary64 (absolute d) := by
  obtain ⟨m, e, short, low, high, value⟩ := absolute_short finite
  rw [value]
  exact held_of_short (by omega) (by omega) (by omega)

/-- Widening loses nothing. -/
theorem shows_widen {d : Float32} (finite : d.isFinite = true) :
    ∃ sign, Shows (widen d) sign (absolute d) := by
  have held := held_absolute finite
  rcases finite_cases finite with ⟨none, sign, shape⟩ | ⟨sign, m, e, fits, shape, value, -⟩
  · refine ⟨sign, shows_of_place (u := .zero .positive) ?_ ?_ held⟩
    · unfold widen
      rw [shape]
      rfl
    · rw [pack_zero, none, rank_zero, Nat.zero_min]
  · refine ⟨sign, shows_of_place (u := UnpackedFloat.round .binary64 .positive m e) ?_ ?_ held⟩
    · unfold widen
      rw [shape, ← round_withSign]
      rfl
    · rw [value]
      exact pack_rounded wide_binary64 (rounded_round .positive fits.pos e)

/-- A natural number of at most fifty-three bits is converted as it is. -/
theorem shows_natural {k : ℕ} (short : k < 2 ^ 53) :
    Shows (UInt64.ofNat k).toFloat .positive k := by
  have held : Held .binary64 (k : ℝ) := by
    have held := held_of_short short (show -1074 ≤ 0 by norm_num) (by norm_num)
    rwa [zpow_zero, mul_one] at held
  have number : (UInt64.ofNat k).toNat = k := UInt64.toNat_ofNat_of_lt (short.trans (by decide))
  have stored : (UInt64.ofNat k).toFloat.toModel.unpack = unpack .binary64 (pack .binary64
      (UnpackedFloat.normalize .binary64 ((UInt64.ofNat k).toNat : ℤ) 0 .positive)) := rfl
  rw [number] at stored
  have unsigned : UnpackedFloat.normalize .binary64 k 0 .positive =
      withSign .positive (UnpackedFloat.normalize .binary64 k 0 .positive) := by
    rcases Nat.eq_zero_or_pos k with rfl | pos
    · rfl
    · exact normalize_apply .positive (by exact_mod_cast pos) 0
  have place := pack_normalize wide_binary64 k 0
  rw [zpow_zero, mul_one] at place
  rw [unsigned] at stored
  exact shows_of_place stored place held

end Sentry
