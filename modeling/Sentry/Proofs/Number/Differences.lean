import Sentry.Proofs.Number.Moment
import Sentry.Proofs.Number.Neighbours

/-! Waiting times. The difference of two clock readings, the later one first, is a
clock reading itself, and no later than the first of them. It grows with the later
one, and it is zero only if the two are the same. -/
namespace Sentry.Rounding
open Float.Model (Format UnpackedFloat)
open Float.Model.UnpackedFloat hiding round normalize

variable {format : Format} {n k : ℕ} {a b : UnpackedFloat}

/-- Numbers are ordered like their places. -/
theorem magnitude_le (wide : 2 ≤ format.exponentBits) (left : Decoded format n a)
    (right : Decoded format k b) (le : n ≤ k) (below : k < ceiling format) :
    magnitude format a ≤ magnitude format b := by
  rcases Nat.eq_zero_or_pos n with none | present
  · cases left with
    | zero least => exact magnitude_nonneg format b
    | finite fits place _ =>
      have := fits.pos
      omega
    | infinite top => exact absurd (top.symm.trans none) (ceiling_pos format).ne'
  · refine exact_le_of_rank_le (exact_of_decoded left present (le.trans_lt below))
      (exact_of_decoded right (present.trans_le le) below) ?_
    rwa [rank_magnitude wide left, rank_magnitude wide right]

private theorem difference_finite (wide : 2 ≤ format.exponentBits) {m₁ m₂ : ℕ} {e₁ e₂ : ℤ}
    (pos₁ : 0 < m₁) (pos₂ : 0 < m₂) (le : (m₂ * 2 ^ e₂ : ℝ) ≤ m₁ * 2 ^ e₁) :
    (pack format (sub format (.finite .positive m₁ e₁ pos₁) (.finite .positive m₂ e₂ pos₂))).toNat =
      min (rank format (m₁ * 2 ^ e₁ - m₂ * 2 ^ e₂)) (ceiling format) := by
  let least := min e₁ e₂
  let high := m₁ * 2 ^ (e₁ - least).toNat
  let low := m₂ * 2 ^ (e₂ - least).toNat
  have high_value : (high : ℝ) * 2 ^ least = m₁ * 2 ^ e₁ := aligned (min_le_left e₁ e₂) m₁
  have low_value : (low : ℝ) * 2 ^ least = m₂ * 2 ^ e₂ := aligned (min_le_right e₁ e₂) m₂
  have ordered : low ≤ high := by
    rw [← high_value, ← low_value] at le
    exact_mod_cast le_of_mul_le_mul_right le (by positivity)
  have difference : sub format (.finite .positive m₁ e₁ pos₁) (.finite .positive m₂ e₂ pos₂) =
      UnpackedFloat.normalize format ((high - low : ℕ) : ℤ) least .positive := by
    rw [Nat.cast_sub ordered]
    simp only [sub, decreaseExponent, Nat.shiftLeft_eq, Sign.apply, high, low, least]
  have value : ((high - low : ℕ) : ℝ) * 2 ^ least = m₁ * 2 ^ e₁ - m₂ * 2 ^ e₂ := by
    rw [Nat.cast_sub ordered, sub_mul, high_value, low_value]
  rw [difference, ← value]
  exact pack_normalize wide (high - low) least

/-- The place of a difference is that of the exact one. -/
theorem sub_decoded (wide : 2 ≤ format.exponentBits) (left : Decoded format n a)
    (right : Decoded format k b) (le : k ≤ n) (below : n < ceiling format) :
    (pack format (sub format a b)).toNat =
      rank format (magnitude format a - magnitude format b) := by
  have ordered := magnitude_le wide right left le below
  have here := rank_magnitude wide left
  have inside : rank format (magnitude format a - magnitude format b) ≤ ceiling format := by
    refine (rank_mono format ?_).trans (here.trans_le below.le)
    exact sub_le_self _ (magnitude_nonneg format b)
  cases right with
  | infinite top => omega
  | zero least =>
    rw [magnitude_zero, sub_zero, here, ← pack_decoded wide left]
    cases left with
    | zero least' => rfl
    | finite fits place _ => rfl
    | infinite top => exact absurd top below.ne
  | finite fits' place' _ =>
    cases left with
    | zero least' =>
      have := fits'.pos
      omega
    | infinite top => exact absurd top below.ne
    | finite fits place _ =>
      exact (difference_finite wide fits.pos fits'.pos ordered).trans (min_eq_left inside)

/-! ## Differences that vanish -/

/-- Every stored number is a whole multiple of the lowest one. -/
theorem magnitude_whole (decoded : Decoded format n a) :
    ∃ units : ℕ, magnitude format a = units * 2 ^ format.minExponent := by
  cases decoded with
  | zero least => exact ⟨0, by rw [magnitude_zero, Nat.cast_zero, zero_mul]⟩
  | finite fits place below => exact ⟨_, (aligned fits.low _).symm⟩
  | infinite top => exact ⟨_, (aligned (by omega) _).symm⟩

theorem exact_lowest (format : Format) : Exact format (2 ^ format.minExponent) := by
  have some_place := binade_pos format
  have fits : Fits format 1 format.minExponent := ⟨one_pos, by omega, le_rfl, .inr rfl⟩
  exact ⟨1, format.minExponent, fits, by rw [Nat.cast_one, one_mul]⟩

/-- The difference of two numbers is at least the lowest one, so it does not round to zero. -/
theorem rank_sub_pos (wide : 2 ≤ format.exponentBits) (left : Decoded format n a)
    (right : Decoded format k b) (lt : k < n) :
    0 < rank format (magnitude format a - magnitude format b) := by
  obtain ⟨units, value⟩ := magnitude_whole left
  obtain ⟨units', value'⟩ := magnitude_whole right
  have more : units' < units := by
    by_contra fewer
    have le : magnitude format a ≤ magnitude format b := by
      have fewer : (units : ℝ) ≤ units' := by exact_mod_cast not_lt.mp fewer
      rw [value, value']
      gcongr
    have places := rank_mono format le
    rw [rank_magnitude wide left, rank_magnitude wide right] at places
    omega
  have lowest : (2 : ℝ) ^ format.minExponent ≤ magnitude format a - magnitude format b := by
    have apart : (1 : ℝ) ≤ units - units' := by
      have more : (units' : ℝ) + 1 ≤ units := by exact_mod_cast more
      linarith
    rw [value, value', ← sub_mul]
    exact le_mul_of_one_le_left (by positivity) apart
  exact (rank_exact_pos (exact_lowest format)).trans_le (rank_mono format lowest)

end Sentry.Rounding

namespace Sentry
open Rounding

variable {x y z : Float}

/-- The wait from one clock reading to a later one. -/
theorem word_sub (later : IsMoment x) (earlier : IsMoment y) (finite : x.isFinite = true)
    (le : y ≤ x) : word (x - y) = rank .binary64
      (magnitude .binary64 x.toModel.unpack - magnitude .binary64 y.toModel.unpack) := by
  rw [finite_iff_word later] at finite
  rw [le_iff_word earlier later] at le
  exact sub_decoded wide_binary64 later.decoded earlier.decoded le finite

/-- A wait is a clock reading, no larger than the one that is waited for. -/
theorem moment_sub (later : IsMoment x) (earlier : IsMoment y) (finite : x.isFinite = true)
    (le : y ≤ x) : IsMoment (x - y) ∧ x - y ≤ x := by
  have shorter : word (x - y) ≤ word x := by
    rw [word_sub later earlier finite le, word_eq_rank later]
    exact rank_mono _ (sub_le_self _ (magnitude_nonneg _ _))
  have moment : IsMoment (x - y) := shorter.trans later
  exact ⟨moment, (le_iff_word moment later).mpr shorter⟩

/-- The wait for a later clock reading is no shorter. -/
theorem word_sub_mono (start : IsMoment x) (first : IsMoment y) (second : IsMoment z)
    (finite : z.isFinite = true) (le : x ≤ y) (le' : y ≤ z) : word (y - x) ≤ word (z - x) := by
  have below := (finite_iff_word second).mp finite
  have order := (le_iff_word first second).mp le'
  have finite' : y.isFinite = true := (finite_iff_word first).mpr (order.trans_lt below)
  have farther := magnitude_le wide_binary64 first.decoded second.decoded order below
  rw [word_sub first start finite' le,
    word_sub second start finite (moment_le_trans start first second le le')]
  exact rank_mono _ (sub_le_sub_right farther _)

/-- Only for the same clock reading there is no wait. -/
theorem sub_vanishes_iff (later : IsMoment x) (earlier : IsMoment y) (finite : x.isFinite = true)
    (le : y ≤ x) : x - y = 0 ↔ x = y := by
  have wait := word_sub later earlier finite le
  constructor
  · intro vanished
    rw [vanished] at wait
    rw [le_iff_word earlier later] at le
    apply eq_of_word_eq
    by_contra differs
    have apart : word y < word x := by omega
    exact (rank_sub_pos wide_binary64 later.decoded earlier.decoded apart).ne wait
  · rintro rfl
    rw [sub_self, rank_zero] at wait
    exact eq_of_word_eq wait

end Sentry
