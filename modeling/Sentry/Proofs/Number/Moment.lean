import Sentry.Number.Order
import Sentry.Proofs.Number.Packing
import Sentry.Timer.Queue

/-! Clock readings. A moment is a number without a sign bit that is no NaN, and
a delay is a moment or the negative zero. Moments are ordered like their words,
and adding a delay never moves a moment back. -/
namespace Sentry
open Float.Model (Format UnpackedFloat)
open Rounding

/-- The bits of a number, read as a natural number. -/
def word (x : Float) : ℕ :=
  x.toBits.toNat

/-- What a clock can show: zero, a positive number, or infinity. -/
def IsMoment (x : Float) : Prop :=
  word x ≤ ceiling .binary64

/-- What can be added to a clock. Of the numbers with a sign bit only zero is
allowed; adding it changes nothing. -/
def IsDelay (x : Float) : Prop :=
  IsMoment x ∨ x.toModel.unpack = .zero .negative

instance (x : Float) : Decidable (IsMoment x) :=
  inferInstanceAs (Decidable (_ ≤ _))

theorem moment_zero : IsMoment 0 := by decide

theorem wide_binary64 : 2 ≤ Format.binary64.exponentBits := by decide

variable {x y z : Float}

theorem IsMoment.decoded (moment : IsMoment x) :
    Decoded .binary64 (word x) x.toModel.unpack :=
  decoded_unpack wide_binary64 moment

theorem finite_iff_word (moment : IsMoment x) :
    x.isFinite = true ↔ word x < ceiling .binary64 :=
  finite_iff_decoded moment.decoded

/-! ## Order -/

private theorem compare_words (left : IsMoment x) (right : IsMoment y) :
    x.toModel.unpack.compare y.toModel.unpack = some (compare (word x) (word y)) :=
  compare_decoded left.decoded right.decoded

private theorem le_iff_compare :
    x ≤ y ↔ (x.toModel.unpack.compare y.toModel.unpack).any (·.isLE) = true :=
  decide_eq_true_iff

private theorem lt_iff_compare :
    x < y ↔ (x.toModel.unpack.compare y.toModel.unpack == some .lt) = true :=
  decide_eq_true_iff

theorem le_iff_word (left : IsMoment x) (right : IsMoment y) : x ≤ y ↔ word x ≤ word y := by
  rw [le_iff_compare, compare_words left right]
  exact Nat.isLE_compare

theorem lt_iff_word (left : IsMoment x) (right : IsMoment y) : x < y ↔ word x < word y := by
  rw [lt_iff_compare, compare_words left right]
  simp [Nat.compare_eq_lt]

theorem not_le_iff_lt (left : IsMoment x) (right : IsMoment y) : ¬ x ≤ y ↔ y < x := by
  rw [le_iff_word left right, lt_iff_word right left, Nat.not_le]

theorem moment_le_refl (moment : IsMoment x) : x ≤ x :=
  (le_iff_word moment moment).mpr le_rfl

theorem moment_le_trans (first : IsMoment x) (second : IsMoment y) (third : IsMoment z)
    (le : x ≤ y) (le' : y ≤ z) : x ≤ z := by
  rw [le_iff_word first second] at le
  rw [le_iff_word second third] at le'
  exact (le_iff_word first third).mpr (le.trans le')

theorem zero_le_moment (moment : IsMoment x) : 0 ≤ x :=
  (le_iff_word moment_zero moment).mpr (Nat.zero_le _)

theorem eq_of_word_eq (same : word x = word y) : x = y := by
  obtain ⟨⟨bits, valid⟩⟩ := x
  obtain ⟨⟨bits', valid'⟩⟩ := y
  obtain rfl : bits = bits' := UInt64.toNat_inj.mp same
  rfl

theorem moment_le_antisymm (left : IsMoment x) (right : IsMoment y) (le : x ≤ y) (le' : y ≤ x) :
    x = y := by
  rw [le_iff_word left right] at le
  rw [le_iff_word right left] at le'
  exact eq_of_word_eq (le.antisymm le')

/-- The order in which events fire agrees with the order of their moments. -/
theorem orderKey_eq_word (moment : IsMoment x) : orderKey x = word x := by
  have small : word x < signBit := lt_of_le_of_lt moment (by decide)
  exact if_pos small

theorem larger_eq_left (left : IsMoment x) (right : IsMoment y) (le : y ≤ x) :
    larger x y = x := by
  have number : x.isNaN = false := decoded_is_number left.decoded
  have behind : ¬ x < y := by
    rwa [← not_le_iff_lt right left, not_not]
  rw [larger, if_neg behind, number]
  rfl

/-! ## Addition -/

private theorem word_of_pack (u : UnpackedFloat) :
    word (.ofModel (Float.Model.pack u)) = (u.pack .binary64).toNat := rfl

theorem word_add (left : IsMoment x) (right : IsMoment y) :
    word (x + y) = min (rank .binary64 (magnitude .binary64 x.toModel.unpack +
      magnitude .binary64 y.toModel.unpack)) (ceiling .binary64) :=
  add_decoded wide_binary64 left.decoded right.decoded

theorem word_eq_rank (moment : IsMoment x) :
    word x = rank .binary64 (magnitude .binary64 x.toModel.unpack) :=
  (rank_magnitude wide_binary64 moment.decoded).symm

theorem add_zero_delay (left : IsMoment x)
    (right : y.toModel.unpack = .zero .negative) : x + y = x := by
  apply eq_of_word_eq
  change ((x.toModel.unpack.add .binary64 y.toModel.unpack).pack .binary64).toNat = word x
  rw [right, add_negative_zero left.decoded]
  exact pack_decoded wide_binary64 left.decoded

theorem moment_add (left : IsMoment x) (right : IsDelay y) : IsMoment (x + y) := by
  rcases right with right | zero
  · rw [IsMoment, word_add left right]
    exact min_le_right _ _
  · rwa [add_zero_delay left zero]

theorem le_add (left : IsMoment x) (right : IsDelay y) : x ≤ x + y := by
  have sum := moment_add left right
  rcases right with right | zero
  · rw [le_iff_word left sum, word_add left right]
    refine le_min ?_ left
    rw [word_eq_rank left]
    exact rank_mono _ (le_add_of_nonneg_right (magnitude_nonneg _ _))
  · rw [add_zero_delay left zero]
    exact moment_le_refl left

theorem add_le_add_right (first : IsMoment x) (second : IsMoment y) (delay : IsDelay z)
    (le : x ≤ y) : x + z ≤ y + z := by
  rw [le_iff_word (moment_add first delay) (moment_add second delay)]
  rcases delay with delay | zero
  · rw [word_add first delay, word_add second delay]
    refine min_le_min_right _ (rank_mono _ (add_le_add_left ?_ _))
    by_contra above
    rw [le_iff_word first second] at le
    have same : x = y := by
      apply eq_of_word_eq
      apply le_antisymm le
      rw [word_eq_rank first, word_eq_rank second]
      exact rank_mono _ (le_of_not_ge above)
    exact above (by rw [same])
  · rw [add_zero_delay first zero, add_zero_delay second zero]
    exact (le_iff_word first second).mp le

/-! ## Delays -/

theorem lt_iff_compare32 {c d : Float32} :
    c < d ↔ (c.toModel.unpack.compare d.toModel.unpack == some .lt) = true :=
  decide_eq_true_iff

theorem le_iff_compare32 {c d : Float32} :
    c ≤ d ↔ (c.toModel.unpack.compare d.toModel.unpack).any (·.isLE) = true :=
  decide_eq_true_iff

theorem unpack_zero32 : (0 : Float32).toModel.unpack = .zero .positive := rfl

theorem unpack_of_nonneg {d : Float32} (finite : d.isFinite) (nonneg : ¬ d < 0) :
    (∃ sign, d.toModel.unpack = .zero sign) ∨
      ∃ m e positive, d.toModel.unpack = .finite .positive m e positive := by
  change d.toModel.unpack.isFinite = true at finite
  rw [lt_iff_compare32, unpack_zero32] at nonneg
  cases shape : d.toModel.unpack with
  | infinity sign => simp [shape, UnpackedFloat.isFinite] at finite
  | notANumber => simp [shape, UnpackedFloat.isFinite] at finite
  | zero sign => exact .inl ⟨sign, rfl⟩
  | finite sign m e positive =>
    cases sign with
    | negative => simp [shape, UnpackedFloat.compare] at nonneg
    | positive => exact .inr ⟨m, e, positive, rfl⟩

/-- A finite number is below zero or it is not. -/
theorem nonneg_of_not_neg {d : Float32} (finite : d.isFinite) (nonneg : ¬ d < 0) : 0 ≤ d := by
  rw [le_iff_compare32, unpack_zero32]
  rcases unpack_of_nonneg finite nonneg with ⟨sign, shape⟩ | ⟨m, e, positive, shape⟩ <;>
    rw [shape] <;> rfl

theorem not_neg_of_pos {d : Float32} (positive : 0 < d) : ¬ d < 0 := by
  rw [lt_iff_compare32, unpack_zero32] at positive ⊢
  cases shape : d.toModel.unpack with
  | infinity sign => cases sign <;> simp_all [UnpackedFloat.compare]
  | notANumber => simp [UnpackedFloat.compare]
  | zero sign => simp [UnpackedFloat.compare]
  | finite sign m e _ => cases sign <;> simp_all [UnpackedFloat.compare]

/-- A finite number that is not below zero widens to a delay. -/
theorem widen_delay {d : Float32} (finite : d.isFinite) (nonneg : ¬ d < 0) :
    IsDelay (widen d) := by
  rcases unpack_of_nonneg finite nonneg with ⟨sign, zero⟩ | ⟨m, e, positive, shape⟩
  · unfold widen
    rw [zero]
    cases sign with
    | negative => exact .inr rfl
    | positive => exact .inl moment_zero
  · left
    unfold IsMoment widen
    rw [shape, word_of_pack]
    have rounded := pack_rounded wide_binary64 (rounded_round .positive positive e)
    exact rounded.trans_le (min_le_right _ _)

theorem effectiveDelay_of_nonneg {d : Float32} (finite : d.isFinite) (nonneg : ¬ d < 0) :
    Timer.Queue.effectiveDelay d = widen d := by
  have number : d.isNaN = false := by
    change d.toModel.unpack.isNaN = false
    rcases unpack_of_nonneg finite nonneg with ⟨sign, shape⟩ | ⟨m, e, positive, shape⟩ <;>
      rw [shape] <;> rfl
  rw [Timer.Queue.effectiveDelay, if_pos finite, larger32, if_neg nonneg, number]
  rfl

theorem effectiveDelay_is_delay (d : Float32) : IsDelay (Timer.Queue.effectiveDelay d) := by
  by_cases finite : d.isFinite
  · by_cases negative : d < 0
    · rw [Timer.Queue.effectiveDelay, if_pos finite, larger32, if_pos negative]
      exact .inl moment_zero
    · rw [effectiveDelay_of_nonneg finite negative]
      exact widen_delay finite negative
  · rw [Timer.Queue.effectiveDelay, if_neg finite]
    exact .inl moment_zero

/-- A step that moves the horizon is a delay. -/
theorem step_is_delay {dt : Float32} (step : Timer.Queue.isStep dt = true) :
    IsDelay (widen dt) := by
  unfold Timer.Queue.isStep at step
  rw [Bool.and_eq_true, decide_eq_true_eq] at step
  exact widen_delay step.1 (not_neg_of_pos step.2)

end Sentry
