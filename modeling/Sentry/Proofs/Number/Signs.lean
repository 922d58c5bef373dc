import Sentry.Proofs.Number.Neighbours

/-! Signs. A number and its negative differ in one bit, and rounding treats them
alike; so what is known of stored positive numbers holds of negative ones. -/
namespace Sentry.Rounding
open Float.Model (Format UnpackedFloat)
open Float.Model.UnpackedFloat hiding round normalize

variable {format : Format}

/-- A number with its sign replaced. -/
def withSign (sign : Sign) : UnpackedFloat → UnpackedFloat
  | .notANumber => .notANumber
  | .infinity _ => .infinity sign
  | .zero _ => .zero sign
  | .finite _ m e pos => .finite sign m e pos

theorem withSign_withSign (sign other : Sign) (u : UnpackedFloat) :
    withSign sign (withSign other u) = withSign sign u := by
  cases u <;> rfl

/-- The sign is packed apart from the rest. -/
theorem pack_withSign (sign : Sign) {u : UnpackedFloat} (number : u ≠ .notANumber) :
    pack format (withSign sign u) =
      packComponents format sign (unpackExponent (pack format u)) (unpackMantissa (pack format u)) := by
  cases u with
  | notANumber => exact absurd rfl number
  | zero other =>
    simp only [withSign, pack, packedZero, unpackExponent_packComponents,
      unpackMantissa_packComponents]
  | infinity other =>
    simp only [withSign, pack, packedInfinity, unpackExponent_packComponents,
      unpackMantissa_packComponents]
  | finite other m e pos =>
    simp only [withSign, pack, packedInfinity]
    split_ifs <;> simp only [unpackExponent_packComponents, unpackMantissa_packComponents]

theorem unpack_components (sign : Sign) (exponent : BitVec format.exponentBits)
    (mantissa : BitVec format.mantissaBitsWithoutImplicit) :
    unpack format (packComponents format sign exponent mantissa) =
      withSign sign (unpack format (packComponents format .positive exponent mantissa)) := by
  unfold unpack
  simp only [unpackSign_packComponents, unpackExponent_packComponents,
    unpackMantissa_packComponents, Sign.ofBitVec_toBitVec]
  split_ifs <;> rfl

/-- A sign is neither lost nor changed by packing. -/
theorem unpack_pack_withSign (sign : Sign) {u : UnpackedFloat} (number : u ≠ .notANumber) :
    unpack format (pack format (withSign sign u)) = withSign sign (unpack format (pack format u)) := by
  rw [pack_withSign sign number, unpack_components]
  conv_rhs => rw [← packComponents_unpackSign_unpackExponent_unpackMantissa (pack format u),
    unpack_components, withSign_withSign]

theorem roundWithAccuracy_withSign (sign : Sign) (m : ℕ) (e : ℤ) (accuracy : Accuracy) :
    roundWithAccuracy format sign m e accuracy =
      withSign sign (roundWithAccuracy format .positive m e accuracy) := by
  unfold roundWithAccuracy
  dsimp only
  split <;> rfl

theorem round_withSign (sign : Sign) (m : ℕ) (e : ℤ) :
    UnpackedFloat.round format sign m e =
      withSign sign (UnpackedFloat.round format .positive m e) :=
  roundWithAccuracy_withSign sign _ _ _

theorem withSign_positive {n : ℕ} {u : UnpackedFloat} (decoded : Decoded format n u) :
    withSign .positive u = u := by
  cases decoded <;> rfl

theorem magnitude_withSign (sign : Sign) (u : UnpackedFloat) :
    magnitude format (withSign sign u) = magnitude format u := by
  cases u <;> rfl

theorem round_is_number (sign : Sign) (m : ℕ) (e : ℤ) :
    UnpackedFloat.round format sign m e ≠ .notANumber := by
  unfold UnpackedFloat.round roundWithAccuracy
  dsimp only
  split <;> exact UnpackedFloat.noConfusion

/-- The negative of a positive number. -/
theorem unpack_neg {y : Float} {m : ℕ} {e : ℤ} {pos : 0 < m}
    (shape : y.toModel.unpack = .finite .positive m e pos) :
    (-y).toModel.unpack = .finite .negative m e pos := by
  have stored : unpack .binary64 (pack .binary64 y.toModel.unpack) = y.toModel.unpack :=
    congrArg _ (pack_unpack_of_valid y.toModel.valid)
  have number : y.toModel.unpack ≠ .notANumber := by
    rw [shape]
    exact UnpackedFloat.noConfusion
  change unpack .binary64 (pack .binary64 y.toModel.unpack.neg) = _
  have negated : y.toModel.unpack.neg = withSign .negative y.toModel.unpack := by
    rw [shape]
    rfl
  rw [negated, unpack_pack_withSign _ number, stored, shape]
  rfl

/-! ## Order -/

section
variable {n k : ℕ} {a b : UnpackedFloat}

/-- A number with a minus is no larger than one without. -/
theorem negative_le (left : Decoded format n a) (right : Decoded format k b) :
    ((withSign .negative a).compare b).any (·.isLE) = true := by
  cases left <;> cases right <;> rfl

/-- A minus turns the order around. -/
theorem compare_negative (left : Decoded format n a) (right : Decoded format k b) :
    (withSign .negative a).compare (withSign .negative b) = some (compare k n) := by
  rw [← compare_decoded right left]
  cases left with
  | zero least => cases right <;> rfl
  | infinite top => cases right <;> rfl
  | @finite m e fits place below =>
    cases right with
    | zero least' => rfl
    | infinite top' => rfl
    | @finite m' e' fits' place' below' =>
      change some ((compare e e').then (compare m m')).swap =
        some ((compare e' e).then (compare m' m))
      rw [Ordering.swap_then, Int.compare_swap, Nat.compare_swap]

end

/-! ## Stored numbers -/

section
variable {b : BitVec format.numBits} {sign : Sign} {m : ℕ} {e : ℤ} {pos : 0 < m}

/-- A word without its sign. -/
def unsigned (b : BitVec format.numBits) : BitVec format.numBits :=
  packComponents format .positive (unpackExponent b) (unpackMantissa b)

theorem unpack_unsigned (b : BitVec format.numBits) :
    unpack format b = withSign (.ofBitVec (unpackSign b)) (unpack format (unsigned b)) := by
  rw [unsigned, ← unpack_components, packComponents_unpackSign_unpackExponent_unpackMantissa]

/-- The exponent of infinity is that of no finite number. -/
theorem exponent_of_finite (shape : unpack format b = .finite sign m e pos) :
    (unpackExponent b).toNat < 2 ^ format.exponentBits - 1 := by
  have room := (unpackExponent b).isLt
  by_contra top
  have full : unpackExponent b = -1#_ := by
    rw [← BitVec.toNat_inj, BitVec.neg_one_eq_allOnes, BitVec.toNat_allOnes]
    omega
  unfold unpack at shape
  dsimp only at shape
  rw [if_pos full] at shape
  split_ifs at shape

theorem unsigned_lt (shape : unpack format b = .finite sign m e pos) :
    (unsigned b).toNat < ceiling format := by
  have exponent := exponent_of_finite shape
  have mantissa := (unpackMantissa b).isLt
  rw [unsigned, components_toNat]
  calc _ < ((unpackExponent b).toNat + 1) * binade format := by
        rw [add_one_mul]
        exact Nat.add_lt_add_left mantissa _
    _ ≤ ceiling format := Nat.mul_le_mul_right _ exponent

/-- A finite number is stored at its place, under its sign. -/
theorem fits_of_finite (wide : 2 ≤ format.exponentBits)
    (shape : unpack format b = .finite sign m e pos) :
    sign = .ofBitVec (unpackSign b) ∧ Fits format m e ∧
      (e - format.minExponent).toNat * binade format + m = (unsigned b).toNat := by
  have decoded := decoded_unpack wide (unsigned_lt shape).le
  rw [unpack_unsigned] at shape
  cases decoded_shape : unpack format (unsigned b) with
  | notANumber => simp [decoded_shape, withSign] at shape
  | zero other => simp [decoded_shape, withSign] at shape
  | infinity other => simp [decoded_shape, withSign] at shape
  | finite other m' e' pos' =>
    simp only [decoded_shape, withSign, UnpackedFloat.finite.injEq] at shape
    obtain ⟨rfl, rfl, rfl⟩ := shape
    rw [decoded_shape] at decoded
    cases decoded with
    | finite fits place _ => exact ⟨rfl, fits, place⟩

/-- Whatever is packed at the place of a finite number becomes that number under
its sign. -/
theorem pack_of_place (wide : 2 ≤ format.exponentBits)
    (shape : unpack format b = .finite sign m e pos) {u : UnpackedFloat}
    (number : u ≠ .notANumber) (place : (pack format u).toNat = (unsigned b).toNat) :
    pack format (withSign sign u) = b := by
  obtain ⟨same, -⟩ := fits_of_finite wide shape
  rw [pack_withSign sign number, BitVec.eq_of_toNat_eq place, unsigned,
    unpackExponent_packComponents, unpackMantissa_packComponents, same,
    packComponents_unpackSign_unpackExponent_unpackMantissa]

end

end Sentry.Rounding
