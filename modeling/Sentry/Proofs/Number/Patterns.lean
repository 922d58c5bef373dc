import Sentry.Proofs.Decimal.Return
import Sentry.Proofs.Number.Lengths

/-! Tests of numbers as tests of their bits. The patterns of the numbers without a
sign bit rise from zero to infinity, and those of the others follow them in the
same order; all ones in the exponent set the infinities and the NaNs apart. -/
namespace Sentry
open Float.Model (Format UnpackedFloat)
open Float.Model.UnpackedFloat hiding round normalize
open Rounding

variable {x y : Float32}

theorem lt_iff_place (left : IsSize x) (right : IsSize y) : x < y ↔ place x < place y := by
  rw [lt_iff_compare32, compare_decoded left.decoded right.decoded]
  simp [Nat.compare_eq_lt]

theorem size_zero : IsSize 0 := by decide

/-- A number is finite if its exponent is not the largest one. -/
theorem finite_iff_pattern : x.isFinite = true ↔ place x % 0x80000000 < 0x7F800000 := by
  let b : BitVec Format.binary32.numBits := x.toModel.toBits.toBitVec
  have exponent : (unpackExponent b).toNat = place x / 2 ^ 23 % 2 ^ 8 := unpackExponent_toNat b
  have top : unpackExponent b = -1#_ ↔ place x / 2 ^ 23 % 2 ^ 8 = 255 := by
    rw [← exponent, ← BitVec.toNat_inj]
    rfl
  have finite : x.isFinite = true ↔ unpackExponent b ≠ -1#_ := by
    change (unpack .binary32 b).isFinite = true ↔ _
    unfold unpack
    dsimp only
    split_ifs <;> simp_all [UnpackedFloat.isFinite]
  rw [finite, Ne, top]
  omega

/-- A finite number not below zero has no sign bit, unless it is the negative zero. -/
theorem nonneg_iff_pattern : x.isFinite = true ∧ ¬ x < 0 ↔
    place x < 0x7F800000 ∨ place x = 0x80000000 := by
  constructor
  · rintro ⟨finite, nonneg⟩
    have pattern := finite_iff_pattern.mp finite
    rcases unpack_of_nonneg finite nonneg with ⟨sign, shape⟩ | ⟨m, e, positive, shape⟩
    · have same {b : UInt32} (zero : (Float32.ofBits b).toModel.unpack = .zero sign) :
          x = .ofBits b :=
        eq_of_bits ((unpack_inj_of_valid x.toModel.valid (Float32.ofBits b).toModel.valid).mp
          (shape.trans zero.symm))
      cases sign with
      | positive => rw [same (b := 0) rfl]; decide
      | negative => rw [same (b := 0x80000000) rfl]; decide
    · let b : BitVec Format.binary32.numBits := x.toModel.toBits.toBitVec
      have sign : Sign.positive = .ofBitVec (unpackSign b) := (fits_of_finite wide_binary32 shape).1
      have bit : (unpackSign b).toNat = place x / 2 ^ 31 % 2 := unpackSign_toNat b
      have unsigned : (unpackSign b).toNat = 0 := by
        have cases := (unpackSign b).isLt
        by_contra other
        have one : unpackSign b = 1#1 := by
          apply BitVec.eq_of_toNat_eq
          rw [BitVec.toNat_one Nat.one_pos]
          omega
        rw [one] at sign
        cases sign
      have room : place x < 2 ^ 32 := x.toModel.toBits.toNat_lt
      omega
  · rintro (below | zero)
    · have size : IsSize x := below.le
      exact ⟨(size_finite_iff size).mpr below, by
        rw [lt_iff_place size size_zero]
        exact Nat.not_lt_zero _⟩
    · have same : x = .ofBits 0x80000000 := eq_of_bits (BitVec.eq_of_toNat_eq zero)
      rw [same]
      decide

/-- A finite number above zero is neither zero nor infinity and has no sign bit. -/
theorem positive_iff_pattern : x.isFinite = true ∧ 0 < x ↔ 0 < place x ∧ place x < 0x7F800000 := by
  constructor
  · rintro ⟨finite, positive⟩
    rcases nonneg_iff_pattern.mp ⟨finite, not_neg_of_pos positive⟩ with below | zero
    · exact ⟨(lt_iff_place size_zero below.le).mp positive, below⟩
    · have same : x = .ofBits 0x80000000 := eq_of_bits (BitVec.eq_of_toNat_eq zero)
      rw [same] at positive
      exact absurd positive (by decide)
  · rintro ⟨present, below⟩
    have size : IsSize x := below.le
    exact ⟨(size_finite_iff size).mpr below, (lt_iff_place size_zero size).mpr present⟩

end Sentry
