import Sentry.Proofs.Decimal.Ends
import Sentry.Proofs.Number.Neighbours

/-! The decimal chosen for a binary32 number lies between two binary64 numbers
that round to that number as all reals between them do. For an even significand
these are the ends of its span. For an odd one they lie a little inside, because
a grid finer than the span has points nearer to the number than to its ends, and
a coarser one has a point near an end only once. -/
namespace Sentry
open Float.Model (Format)
open Ends Rounding

/-- The real that a decimal stands for. -/
noncomputable def Decimal.real (d : Decimal) : ℝ :=
  d.digits * 10 ^ d.exponent

namespace Span

variable {s : Span} {tie : Tie} {k : ℤ} {c : ℕ}

/-! ## Choices -/

theorem search_cases (s : Span) (tie : Tie) (tries : ℕ) (k : ℤ) :
    s.search tie tries k = s.exact ∨
      ∃ grid c, s.onGrid? tie grid = some c ∧ s.search tie tries k = ⟨c, grid⟩ := by
  induction tries generalizing k with
  | zero => exact .inl rfl
  | succ tries ih =>
    cases found : s.onGrid? tie k with
    | some c => exact .inr ⟨k, c, found, by rw [search, found]⟩
    | none =>
      have next : s.search tie (tries + 1) k = s.search tie tries (k - 1) := by
        rw [search, found]
      rw [next]
      exact ih (k - 1)

theorem shortest_cases (s : Span) (tie : Tie) :
    s.shortest tie = s.exact ∨
      ∃ grid c, s.onGrid? tie grid = some c ∧ s.shortest tie = ⟨c, grid⟩ :=
  search_cases s tie 24 s.ceiling

/-- A point is chosen only if it rounds to the number, and only if it is not
farther off than the neighbour on the other side if that one does so as well. -/
theorem onGrid_spec (found : s.onGrid? tie k = some c) :
    let base := s.value * s.unitScale k / s.gridScale k
    s.holds k c = true ∧
      ((c = base ∧ (s.holds k (base + 1) = true →
        2 * (s.value * s.unitScale k) ≤ (2 * base + 1) * s.gridScale k)) ∨
      (c = base + 1 ∧ (s.holds k base = true →
        (2 * base + 1) * s.gridScale k ≤ 2 * (s.value * s.unitScale k)))) := by
  intro base
  unfold onGrid? at found
  dsimp only at found
  split at found
  · next here there =>
    rw [Option.some_inj] at found
    unfold nearer at found
    split at found
    · next lt =>
      rw [compare_lt_iff_lt] at lt
      exact found ▸ ⟨here, .inl ⟨rfl, fun _ => lt.le⟩⟩
    · next gt =>
      rw [compare_gt_iff_gt] at gt
      exact found ▸ ⟨there, .inr ⟨rfl, fun _ => gt.le⟩⟩
    · next eq =>
      rw [compare_eq_iff_eq] at eq
      split at found
      · exact found ▸ ⟨there, .inr ⟨rfl, fun _ => eq.ge⟩⟩
      · rcases Nat.mod_two_eq_zero_or_one base with even | odd
        · rw [even] at found
          exact found ▸ ⟨here, .inl ⟨rfl, fun _ => eq.le⟩⟩
        · rw [odd] at found
          exact found ▸ ⟨there, .inr ⟨rfl, fun _ => eq.ge⟩⟩
  · next here there =>
    rw [Option.some_inj] at found
    exact found ▸ ⟨here, .inl ⟨rfl, fun held => absurd (there.symm.trans held) Bool.false_ne_true⟩⟩
  · next here there =>
    rw [Option.some_inj] at found
    exact found ▸ ⟨there, .inr ⟨rfl, fun held => absurd (here.symm.trans held) Bool.false_ne_true⟩⟩
  · cases found

/-! ## Odd significands -/

section
variable {half : ℕ} {e : ℤ}

/-- The span of an odd significand. -/
theorem ofBinary_odd (half : ℕ) (e : ℤ) :
    ofBinary .binary32 (2 * half + 1) e =
      ⟨8 * half + 2, 8 * half + 4, 8 * half + 6, e - 2, false⟩ := by
  have unequal : 2 * half + 1 ≠ Nat.pow 2 Format.binary32.mantissaBitsWithoutImplicit := by
    change 2 * half + 1 ≠ 2 ^ 23
    omega
  rw [ofBinary, if_neg fun power => unequal power.1, mk.injEq]
  refine ⟨by omega, by omega, by omega, rfl, ?_⟩
  rw [beq_eq_false_iff_ne]
  omega

/-- A point is chosen only if it lies strictly between the ends, and only if it
is not farther off than the neighbour on the other side if that one does so as
well. -/
theorem onGrid_odd (found : (ofBinary .binary32 (2 * half + 1) e).onGrid? tie k = some c) :
    let unit := units (e - 2) k
    let grid := points (e - 2) k
    let base := (8 * half + 4) * unit / grid
    let inside := fun point : ℕ =>
      (8 * half + 2) * unit < point * grid ∧ point * grid < (8 * half + 6) * unit
    inside c ∧
      ((c = base ∧ (inside (base + 1) →
        2 * ((8 * half + 4) * unit) ≤ (2 * base + 1) * grid)) ∨
      (c = base + 1 ∧ (inside base →
        (2 * base + 1) * grid ≤ 2 * ((8 * half + 4) * unit)))) := by
  intro unit grid base inside
  have holds_iff (point : ℕ) :
      (⟨8 * half + 2, 8 * half + 4, 8 * half + 6, e - 2, false⟩ : Span).holds k point = true ↔
        inside point := by
    change (decide _ && decide _) = true ↔ _
    rw [Bool.and_eq_true, decide_eq_true_eq, decide_eq_true_eq]
    rfl
  rw [ofBinary_odd] at found
  obtain ⟨held, nearest⟩ := onGrid_spec found
  rw [holds_iff] at held
  rw [holds_iff, holds_iff] at nearest
  exact ⟨held, nearest⟩

/-- On a finer grid a point close to an end is passed over for its neighbour. -/
theorem wide_of_close (found : (ofBinary .binary32 (2 * half + 1) e).onGrid? tie k = some c)
    (close : Close (e - 2) k half c) : Wide (e - 2) k := by
  obtain ⟨-, nearest⟩ := onGrid_odd found
  have positive := points_pos (e - 2) k
  unfold Wide
  unfold Close at close
  dsimp only at nearest
  generalize points (e - 2) k = grid at *
  generalize units (e - 2) k = unit at *
  have short := Nat.div_mul_le_self ((8 * half + 4) * unit) grid
  have next := Nat.lt_div_mul_add positive (a := (8 * half + 4) * unit)
  generalize (8 * half + 4) * unit / grid = base at *
  simp only [mul_assoc, add_mul, one_mul] at close nearest short next
  generalize half * unit = middle at *
  by_contra finer
  rcases nearest with ⟨rfl, passed⟩ | ⟨rfl, passed⟩
  · have held := passed ⟨by omega, by omega⟩
    omega
  · simp only [add_mul, one_mul] at close
    have held := passed ⟨by omega, by omega⟩
    omega

end

/-! ## Reals -/

theorem scales_real (exponent k : ℤ) :
    (points exponent k : ℝ) * 2 ^ exponent = units exponent k * 10 ^ k := by
  have binary : (2 : ℝ) ^ exponent = 2 ^ exponent.toNat / 2 ^ (-exponent).toNat := by
    rw [← zpow_natCast, ← zpow_natCast, ← zpow_sub₀ (by norm_num)]
    congr 1
    omega
  have decimal : (10 : ℝ) ^ k = 10 ^ k.toNat / 10 ^ (-k).toNat := by
    rw [← zpow_natCast, ← zpow_natCast, ← zpow_sub₀ (by norm_num)]
    congr 1
    omega
  rw [binary, decimal]
  unfold points units
  push_cast
  field_simp

/-- Points and units compare like the reals they stand for. -/
theorem points_le_units {exponent k : ℤ} {a b : ℕ} :
    a * points exponent k ≤ b * units exponent k ↔ (a : ℝ) * 10 ^ k ≤ b * 2 ^ exponent := by
  have unit : (0 : ℝ) < units exponent k := by exact_mod_cast units_pos exponent k
  have power : (0 : ℝ) < 2 ^ exponent := by positivity
  calc a * points exponent k ≤ b * units exponent k
      ↔ (a * points exponent k : ℝ) ≤ b * units exponent k := by norm_cast
    _ ↔ a * points exponent k * 2 ^ exponent ≤ b * units exponent k * (2 : ℝ) ^ exponent :=
      (mul_le_mul_iff_left₀ power).symm
    _ ↔ a * 10 ^ k * (units exponent k : ℝ) ≤ b * 2 ^ exponent * units exponent k := by
      rw [mul_assoc (a : ℝ), scales_real, mul_assoc (a : ℝ), mul_comm _ (10 ^ k : ℝ),
        mul_right_comm (b : ℝ)]
    _ ↔ _ := mul_le_mul_iff_left₀ unit

theorem units_le_points {exponent k : ℤ} {a b : ℕ} :
    b * units exponent k ≤ a * points exponent k ↔ (b : ℝ) * 2 ^ exponent ≤ a * 10 ^ k := by
  have unit : (0 : ℝ) < units exponent k := by exact_mod_cast units_pos exponent k
  have power : (0 : ℝ) < 2 ^ exponent := by positivity
  calc b * units exponent k ≤ a * points exponent k
      ↔ (b * units exponent k : ℝ) ≤ a * points exponent k := by norm_cast
    _ ↔ b * units exponent k * 2 ^ exponent ≤ a * points exponent k * (2 : ℝ) ^ exponent :=
      (mul_le_mul_iff_left₀ power).symm
    _ ↔ b * 2 ^ exponent * (units exponent k : ℝ) ≤ a * 10 ^ k * units exponent k := by
      rw [mul_assoc (a : ℝ), scales_real, mul_assoc (a : ℝ), mul_comm _ (10 ^ k : ℝ),
        mul_right_comm (b : ℝ)]
    _ ↔ _ := mul_le_mul_iff_left₀ unit

theorem exact_real (s : Span) : s.exact.real = s.value * 2 ^ s.exponent := by
  unfold exact Decimal.real
  split_ifs with whole
  · change ((s.value * 2 ^ s.exponent.toNat : ℕ) : ℝ) * 10 ^ (0 : ℤ) = _
    push_cast
    rw [zpow_zero, mul_one, ← zpow_natCast, Int.toNat_of_nonneg whole]
  · change ((s.value * 5 ^ (-s.exponent).toNat : ℕ) : ℝ) * 10 ^ s.exponent = _
    push_cast
    rw [show (10 : ℝ) = 5 * 2 by norm_num, mul_zpow, ← zpow_natCast,
      Int.toNat_of_nonneg (by omega), zpow_neg]
    field_simp

/-! ## The chosen decimal -/

/-- The reals that may be chosen for an even significand reach to the ends. -/
theorem shortest_even {m : ℕ} (even : m % 2 = 0) (e : ℤ) (tie : Tie) :
    let s := ofBinary .binary32 m e
    s.low * 2 ^ (e - 2) ≤ (s.shortest tie).real ∧ (s.shortest tie).real ≤ s.high * 2 ^ (e - 2) := by
  intro s
  have order : s.low ≤ s.value ∧ s.value ≤ s.high := by
    simp only [s, ofBinary]
    split_ifs <;> omega
  rcases shortest_cases s tie with exact | ⟨k, c, found, chosen⟩
  · rw [exact, exact_real]
    have low : (s.low : ℝ) ≤ s.value := by exact_mod_cast order.1
    have high : (s.value : ℝ) ≤ s.high := by exact_mod_cast order.2
    change s.low * (2 : ℝ) ^ (e - 2) ≤ s.value * 2 ^ (e - 2) ∧
      s.value * (2 : ℝ) ^ (e - 2) ≤ s.high * 2 ^ (e - 2)
    constructor <;> gcongr
  · have held := (onGrid_spec found).1
    have closed : s.closed = true := by
      simp only [s, ofBinary, even, beq_self_eq_true]
    rw [holds, if_pos closed, Bool.and_eq_true, decide_eq_true_eq, decide_eq_true_eq] at held
    rw [chosen]
    exact ⟨units_le_points.mp held.1, points_le_units.mp held.2⟩

/-- The reals that may be chosen for an odd significand keep away from the ends,
except for one number. -/
theorem shortest_odd {half : ℕ} {e : ℤ} (low : -149 ≤ e) (high : e ≤ 104)
    (small : 2 * half + 1 < 2 ^ 24) (regular : ¬ (e = -107 ∧ half = 5710334)) (tie : Tie) :
    let d := ((ofBinary .binary32 (2 * half + 1) e).shortest tie).real
    (2 * half + 1 / 2 + 1 / 2 ^ 29) * 2 ^ e ≤ d ∧ d ≤ (2 * half + 3 / 2 - 1 / 2 ^ 29) * 2 ^ e := by
  intro d
  have quarter : (2 : ℝ) ^ e = 4 * 2 ^ (e - 2) := by
    rw [zpow_sub₀ (by norm_num)]
    norm_num
    ring
  rw [quarter]
  have power : (0 : ℝ) < 2 ^ (e - 2) := by positivity
  rcases shortest_cases (ofBinary .binary32 (2 * half + 1) e) tie with
    exact | ⟨k, c, found, chosen⟩
  · have value : d = (8 * half + 4) * 2 ^ (e - 2) := by
      simp only [d]
      rw [exact, exact_real, ofBinary_odd]
      push_cast
      rfl
    rw [value]
    constructor <;> nlinarith
  · have value : d = c * 10 ^ k := by
      simp only [d, chosen, Decimal.real]
    have far : ¬ Close (e - 2) k half c := fun close =>
      regular (by
        have rare := close_is_rare (by omega) (by omega) small (wide_of_close found close) close
        omega)
    obtain ⟨⟨above, below⟩, -⟩ := onGrid_odd found
    unfold Close at far
    have lower : (2 ^ 27 * (8 * half + 2) + 1) * units (e - 2) k ≤
        2 ^ 27 * c * points (e - 2) k := by
      rw [add_one_mul, mul_assoc _ c]
      omega
    have upper : 2 ^ 27 * c * points (e - 2) k ≤ (2 ^ 27 * (8 * half + 6) - 1) * units (e - 2) k := by
      rw [Nat.sub_one_mul, mul_assoc _ c]
      omega
    have lower := units_le_points.mp lower
    have upper := points_le_units.mp upper
    rw [Nat.cast_sub (by omega)] at upper
    push_cast at lower upper
    rw [value]
    constructor <;> linarith

end Span

end Sentry
