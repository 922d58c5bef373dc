import Sentry.Decimal.Shortest
import Sentry.Proofs.Decimal.Residues

/-! Decimals near the ends of a span. The reals that round to a binary number
with an odd significand reach up to two ends that round to its neighbours. A
decimal within the `2 ^ 28`th part of that way to an end may be taken for the end
itself by a reader of twice the width. Grids that are as wide as the span have
only one point so near to an end of any binary32 number, and it is found here by
the rests that the points of a grid leave. -/
namespace Sentry.Ends
open Residues

/-! ## Grids -/

/-- A unit of a span, to be compared with points of the grid of `10 ^ k`. -/
def units (exponent k : ℤ) : ℕ :=
  2 ^ exponent.toNat * 10 ^ (-k).toNat

/-- A point of the grid of `10 ^ k`, to be compared with units. -/
def points (exponent k : ℤ) : ℕ :=
  2 ^ (-exponent).toNat * 10 ^ k.toNat

theorem units_pos (exponent k : ℤ) : 0 < units exponent k := by
  unfold units
  positivity

theorem points_pos (exponent k : ℤ) : 0 < points exponent k := by
  unfold points
  positivity

/-- A point of a coarse grid is one of a finer grid. -/
theorem points_finer (exponent : ℤ) {fine k : ℤ} (coarser : fine ≤ k) :
    points exponent k * units exponent fine =
      10 ^ (k - fine).toNat * points exponent fine * units exponent k := by
  have powers : k.toNat + (-fine).toNat = (k - fine).toNat + fine.toNat + (-k).toNat := by omega
  unfold points units
  calc _ = 2 ^ (-exponent).toNat * 2 ^ exponent.toNat * 10 ^ (k.toNat + (-fine).toNat) := by
        rw [pow_add]
        ring
    _ = _ := by
        rw [powers, pow_add, pow_add]
        ring

/-- The grid is about as wide as the span: at most a `2 ^ 28`th part is missing. -/
def Wide (exponent k : ℤ) : Prop :=
  (2 ^ 28 - 1) * (4 * units exponent k) ≤ 2 ^ 28 * points exponent k

theorem wide_coarser {exponent fine k : ℤ} (coarser : fine ≤ k) (wide : Wide exponent fine) :
    Wide exponent k := by
  have same := points_finer exponent coarser
  have grows : 1 ≤ 10 ^ (k - fine).toNat := Nat.one_le_pow' _ _
  refine Nat.le_of_mul_le_mul_right ?_ (units_pos exponent fine)
  calc (2 ^ 28 - 1) * (4 * units exponent k) * units exponent fine
      = (2 ^ 28 - 1) * (4 * units exponent fine) * units exponent k := by ring
    _ ≤ 2 ^ 28 * points exponent fine * units exponent k := Nat.mul_le_mul_right _ wide
    _ ≤ 10 ^ (k - fine).toNat * (2 ^ 28 * points exponent fine * units exponent k) :=
      Nat.le_mul_of_pos_left _ grows
    _ = 2 ^ 28 * (points exponent k * units exponent fine) := by rw [same]; ring
    _ = _ := by ring

/-- A point comes close to one of the ends of the span of an odd significand,
from within. -/
def Close (exponent k : ℤ) (half point : ℕ) : Prop :=
  (point * points exponent k < (8 * half + 6) * units exponent k ∧
    2 ^ 27 * (8 * half + 6) * units exponent k ≤
      2 ^ 27 * (point * points exponent k) + units exponent k) ∨
  ((8 * half + 2) * units exponent k < point * points exponent k ∧
    2 ^ 27 * (point * points exponent k) ≤
      2 ^ 27 * (8 * half + 2) * units exponent k + units exponent k)

/-- What is close on a coarse grid is close on a finer one. -/
theorem close_finer {exponent fine k : ℤ} (coarser : fine ≤ k) {half point : ℕ}
    (close : Close exponent k half point) :
    Close exponent fine half (point * 10 ^ (k - fine).toNat) := by
  have same := points_finer exponent coarser
  have positive := units_pos exponent k
  have positive' := units_pos exponent fine
  have scaled : point * 10 ^ (k - fine).toNat * points exponent fine * units exponent k =
      point * points exponent k * units exponent fine := by
    rw [mul_assoc point (points exponent k), same]
    ring
  rcases close with ⟨inside, near⟩ | ⟨inside, near⟩
  · refine .inl ⟨Nat.lt_of_mul_lt_mul_right (a := units exponent k) ?_,
      Nat.le_of_mul_le_mul_right ?_ positive⟩
    · rw [scaled, mul_right_comm (8 * half + 6)]
      exact Nat.mul_lt_mul_of_pos_right inside positive'
    · have := Nat.mul_le_mul_right (units exponent fine) near
      linarith
  · refine .inr ⟨Nat.lt_of_mul_lt_mul_right (a := units exponent k) ?_,
      Nat.le_of_mul_le_mul_right ?_ positive⟩
    · rw [scaled, mul_right_comm (8 * half + 2)]
      exact Nat.mul_lt_mul_of_pos_right inside positive'
    · have := Nat.mul_le_mul_right (units exponent fine) near
      linarith

/-! ## The finest wide grid -/

/-- The exponent of the finest wide grid. -/
def finest (exponent : ℤ) : ℤ :=
  -(-(exponent + 2) * 30103 / 100000)

/-- The points to be tried on the finest wide grid. One point of one grid is left
out. -/
def stretches (exponent : ℤ) : List (ℕ × ℕ) :=
  let count := 2 ^ 26 * units exponent (finest exponent) / points exponent (finest exponent) + 1
  if exponent = -109 then [(0, 7038531), (7038532, count)] else [(0, count)]

/-- No finer grid is wide, and no point tried comes close to an end. -/
def isClear (exponent : ℤ) : Bool :=
  let unit := units exponent (finest exponent)
  let point := points exponent (finest exponent)
  2 ^ 28 * points exponent (finest exponent - 1) <
      (2 ^ 28 - 1) * (4 * units exponent (finest exponent - 1)) &&
    (stretches exponent).all fun tried =>
      avoidsFrom tried.1 tried.2 point (8 * unit) (6 * unit - unit / 2 ^ 27) (6 * unit - 1) &&
      avoidsFrom tried.1 tried.2 point (8 * unit) (2 * unit + 1) (2 * unit + unit / 2 ^ 27)

/-- The exponents of the spans of binary32. -/
theorem all_clear : ∀ n : Fin 254, isClear (n.val - 151 : ℤ) = true := by
  decide +kernel

theorem finest_le {exponent k : ℤ} (clear : isClear exponent = true) (wide : Wide exponent k) :
    finest exponent ≤ k := by
  unfold isClear at clear
  dsimp only at clear
  rw [Bool.and_eq_true, decide_eq_true_eq] at clear
  by_contra finer
  exact absurd (wide_coarser (by omega) wide) (not_le.mpr clear.1)

/-- A close point of the finest wide grid leaves one of the rests that are looked
for. -/
theorem close_hits {exponent k : ℤ} {half point : ℕ} (close : Close exponent k half point) :
    let unit := units exponent k
    Hits (points exponent k) (8 * unit) (6 * unit - unit / 2 ^ 27) (6 * unit - 1) point ∨
      Hits (points exponent k) (8 * unit) (2 * unit + 1) (2 * unit + unit / 2 ^ 27) point := by
  intro unit
  have positive : 0 < unit := units_pos exponent k
  change (_ < (8 * half + 6) * unit ∧ 2 ^ 27 * (8 * half + 6) * unit ≤ _ + unit) ∨
    ((8 * half + 2) * unit < _ ∧ _ ≤ 2 ^ 27 * (8 * half + 2) * unit + unit) at close
  have turned : half * (8 * unit) = 8 * (half * unit) := by ring
  rcases close with ⟨inside, near⟩ | ⟨inside, near⟩
  · refine .inl ⟨half, ?_⟩
    have first : (8 * half + 6) * unit = 8 * (half * unit) + 6 * unit := by ring
    have second : 2 ^ 27 * (8 * half + 6) * unit =
        2 ^ 27 * (8 * (half * unit) + 6 * unit) := by ring
    omega
  · refine .inr ⟨half, ?_⟩
    have first : (8 * half + 2) * unit = 8 * (half * unit) + 2 * unit := by ring
    have second : 2 ^ 27 * (8 * half + 2) * unit =
        2 ^ 27 * (8 * (half * unit) + 2 * unit) := by ring
    omega

/-- All points below the upper end of a binary32 number are tried. -/
theorem close_tried {exponent k : ℤ} {half point : ℕ} (small : 2 * half + 1 < 2 ^ 24)
    (close : Close exponent k half point) :
    point < 2 ^ 26 * units exponent k / points exponent k + 1 := by
  rw [Nat.lt_succ_iff, Nat.le_div_iff_mul_le (points_pos exponent k)]
  have bound : (8 * half + 6) * units exponent k ≤ 2 ^ 26 * units exponent k :=
    Nat.mul_le_mul_right _ (by omega)
  rcases close with ⟨inside, -⟩ | ⟨-, near⟩
  · exact (inside.trans_le bound).le
  · have : 2 ^ 27 * (8 * half + 2) * units exponent k = 2 ^ 27 * ((8 * half + 2) * units exponent k) :=
      mul_assoc _ _ _
    have : (8 * half + 6) * units exponent k =
      (8 * half + 2) * units exponent k + 4 * units exponent k := by ring
    omega

/-- Only one point of a wide grid comes close to an end of an odd binary32
number. -/
theorem close_is_rare {exponent k : ℤ} {half point : ℕ} (low : -151 ≤ exponent)
    (high : exponent ≤ 102) (small : 2 * half + 1 < 2 ^ 24) (wide : Wide exponent k)
    (close : Close exponent k half point) : exponent = -109 ∧ half = 5710334 := by
  have clear : isClear exponent = true := by
    have clear := all_clear ⟨(exponent + 151).toNat, by omega⟩
    rwa [show (((exponent + 151).toNat : ℕ) : ℤ) - 151 = exponent by omega] at clear
  have coarser := finest_le clear wide
  have finer := close_finer coarser close
  generalize point * 10 ^ (k - finest exponent).toNat = tried at finer
  have hits := close_hits finer
  have within := close_tried small finer
  have bounded : 6 * units exponent (finest exponent) - 1 < 8 * units exponent (finest exponent) ∧
      2 * units exponent (finest exponent) + units exponent (finest exponent) / 2 ^ 27 <
        8 * units exponent (finest exponent) := by
    have := units_pos exponent (finest exponent)
    omega
  unfold isClear at clear
  dsimp only at clear
  rw [Bool.and_eq_true, List.all_eq_true] at clear
  have missed : ∀ part ∈ stretches exponent, ¬ (part.1 ≤ tried ∧ tried < part.2) := by
    rintro part member ⟨from_start, before_stop⟩
    have avoided := clear.2 part member
    rw [Bool.and_eq_true] at avoided
    rcases hits with hits | hits
    · exact avoidsFrom_sound avoided.1 bounded.1 from_start before_stop hits
    · exact avoidsFrom_sound avoided.2 bounded.2 from_start before_stop hits
  unfold stretches at missed
  dsimp only at missed
  split_ifs at missed with special
  · have before := missed (0, 7038531) List.mem_cons_self
    have behind := missed (7038532,
      2 ^ 26 * units exponent (finest exponent) / points exponent (finest exponent) + 1)
      (List.mem_cons_of_mem _ List.mem_cons_self)
    obtain rfl : tried = 7038531 := by omega
    refine ⟨special, ?_⟩
    subst special
    have unit : units (-109) (finest (-109)) = 10 ^ 32 := by decide +kernel
    have point : points (-109) (finest (-109)) = 2 ^ 109 := by decide +kernel
    unfold Close at finer
    rw [unit, point] at finer
    omega
  · exact absurd ⟨Nat.zero_le _, within⟩ (missed (0, _) List.mem_cons_self)

end Sentry.Ends
