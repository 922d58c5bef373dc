import Sentry.Proofs.Decimal.Choice
import Sentry.Proofs.Decimal.Value
import Sentry.Proofs.Number.Signs

/-! Back from a decimal. The shortest decimal of a binary32 number is read as a
binary64 number and rounded once more. Both roundings keep order, and the decimal
lies between two binary64 numbers that round to the number it was chosen for; so
the number comes back, whatever its sign. One number is excepted. -/
namespace Sentry
open Float.Model (Format UnpackedFloat)
open Float.Model.UnpackedFloat hiding round normalize
open Rounding

/-! ## Windows -/

/-- Two binary64 numbers between which all reals round to the same binary32
number, both in units of its last place. -/
structure Window (m : ℕ) (e : ℤ) (low high : ℝ) : Prop where
  low_exact : Exact .binary64 (low * 2 ^ e)
  high_exact : Exact .binary64 (high * 2 ^ e)
  low_taken : TakesIn .binary32 m e low
  high_taken : TakesIn .binary32 m e high

variable {m : ℕ} {e : ℤ}

theorem exact_binary64 {n : ℕ} (pos : 0 < n) (short : n < 2 ^ 53) (low : -1074 ≤ e) :
    Exact .binary64 (n * 2 ^ e) :=
  exact_of_short pos short low

theorem quarter (n : ℕ) (e : ℤ) : (n / 4 : ℝ) * 2 ^ e = n * 2 ^ (e - 2) := by
  rw [zpow_sub₀ (by norm_num)]
  norm_num
  ring

/-- An even significand has the whole of its span. -/
theorem window_even (fits : Fits .binary32 m e) (even : m % 2 = 0) :
    let s := Span.ofBinary .binary32 m e
    Window m e (s.low / 4) (s.high / 4) := by
  intro s
  have pos := fits.pos
  have lt : m < 2 ^ 24 := fits.lt
  have lowest : -149 ≤ e := fits.low
  have high_eq : s.high = 4 * m + 2 := rfl
  have low_eq : s.low =
      if m = binade .binary32 ∧ Format.binary32.minExponent < e then 4 * m - 1 else 4 * m - 2 := rfl
  have low_cases : (s.low : ℝ) = 4 * m - 1 ∨
      (s.low : ℝ) = 4 * m - 2 ∧ ¬ (m = binade .binary32 ∧ Format.binary32.minExponent < e) := by
    rw [low_eq]
    split_ifs with power
    · left
      push_cast [Nat.cast_sub (show 1 ≤ 4 * m by omega)]
      ring
    · right
      refine ⟨?_, power⟩
      push_cast [Nat.cast_sub (show 2 ≤ 4 * m by omega)]
      ring
  constructor
  · rw [quarter]
    apply exact_binary64
    · rw [low_eq]
      split_ifs <;> omega
    · rw [low_eq]
      split_ifs <;> omega
    · omega
  · rw [quarter]
    exact exact_binary64 (by omega) (by omega) (by omega)
  · rcases low_cases with low | ⟨low, regular⟩
    · rw [low]
      exact ⟨.inl (by linarith), .inl (by linarith), fun _ _ => by linarith⟩
    · rw [low]
      exact ⟨.inl (by linarith), .inr ⟨by ring, even⟩,
        fun power raised => absurd ⟨power, raised⟩ regular⟩
  · have high : (s.high : ℝ) = 4 * m + 2 := by
      rw [high_eq]
      push_cast
      ring
    rw [high]
    exact ⟨.inr ⟨by ring, even⟩, .inl (by linarith), fun _ _ => by linarith⟩

/-- An odd significand has its span without a little at the ends. -/
theorem window_odd {half : ℕ} (fits : Fits .binary32 (2 * half + 1) e) :
    Window (2 * half + 1) e (2 * half + 1 / 2 + 1 / 2 ^ 29) (2 * half + 3 / 2 - 1 / 2 ^ 29) := by
  have lt : 2 * half + 1 < 2 ^ 24 := fits.lt
  have lowest : -149 ≤ e := fits.low
  have power : (2 : ℝ) ^ e = 2 ^ 29 * 2 ^ (e - 29) := by
    rw [zpow_sub₀ (by norm_num)]
    norm_num
    ring
  have no_power : 2 * half + 1 ≠ binade .binary32 := by
    change 2 * half + 1 ≠ 2 ^ 23
    omega
  constructor
  · have value : (2 * half + 1 / 2 + 1 / 2 ^ 29 : ℝ) * 2 ^ e =
        ((2 ^ 29 * (2 * half) + 2 ^ 28 + 1 : ℕ) : ℝ) * 2 ^ (e - 29) := by
      rw [power]
      push_cast
      ring
    rw [value]
    exact exact_binary64 (by omega) (by omega) (by omega)
  · have value : (2 * half + 3 / 2 - 1 / 2 ^ 29 : ℝ) * 2 ^ e =
        ((2 ^ 29 * (2 * half) + 2 ^ 29 + (2 ^ 28 - 1) : ℕ) : ℝ) * 2 ^ (e - 29) := by
      rw [power]
      norm_num
      ring
    rw [value]
    exact exact_binary64 (by omega) (by omega) (by omega)
  · refine ⟨.inl ?_, .inl ?_, fun power => absurd power no_power⟩ <;> push_cast <;> linarith
  · refine ⟨.inl ?_, .inl ?_, fun power => absurd power no_power⟩ <;> push_cast <;> linarith

/-- The shortest decimal of a number lies in a window of it. -/
theorem shortest_in_window (fits : Fits .binary32 m e) (bounded : e ≤ 104)
    (regular : ¬ (e = -107 ∧ m = 11420669)) (tie : Tie) :
    let d := ((Span.ofBinary .binary32 m e).shortest tie).real
    ∃ low high, Window m e low high ∧ low * 2 ^ e ≤ d ∧ d ≤ high * 2 ^ e := by
  intro d
  rcases Nat.mod_two_eq_zero_or_one m with even | odd
  · refine ⟨_, _, window_even fits even, ?_⟩
    have chosen := Span.shortest_even even e tie
    rw [quarter, quarter]
    exact chosen
  · obtain ⟨half, rfl⟩ : ∃ half, m = 2 * half + 1 := ⟨m / 2, by omega⟩
    exact ⟨_, _, window_odd fits,
      Span.shortest_odd fits.low bounded fits.lt (by omega) tie⟩

/-! ## Two roundings -/

theorem exact_ge {x : ℝ} (exact : Exact .binary64 x) : (2 : ℝ) ^ (-1074 : ℤ) ≤ x := by
  obtain ⟨m, e, fits, rfl⟩ := exact
  have one : (1 : ℝ) ≤ m := by exact_mod_cast fits.pos
  calc (2 : ℝ) ^ (-1074 : ℤ) ≤ 2 ^ e := zpow_le_zpow_right₀ (by norm_num) fits.low
    _ ≤ m * 2 ^ e := le_mul_of_one_le_left (by positivity) one

/-- A window of binary32 lies well within binary64. -/
theorem window_bounded {low high : ℝ} (window : Window m e low high) (fits : Fits .binary32 m e)
    (bounded : e ≤ 104) : rank .binary64 (high * 2 ^ e) < ceiling .binary64 := by
  have lt : (m : ℝ) + 1 ≤ 2 ^ 24 := by exact_mod_cast fits.lt
  have above : high ≤ m + 1 / 2 :=
    window.high_taken.upper.elim le_of_lt fun half => half.1.le
  have large : Fits .binary64 (2 ^ 52) 148 := by
    constructor <;> decide +kernel
  have bound : high * 2 ^ e ≤ ((2 ^ 52 : ℕ) : ℝ) * 2 ^ (148 : ℤ) := by
    calc high * 2 ^ e ≤ 2 ^ 24 * 2 ^ (104 : ℤ) := by
          have : high ≤ 2 ^ 24 := by linarith
          have : (2 : ℝ) ^ e ≤ 2 ^ (104 : ℤ) := zpow_le_zpow_right₀ (by norm_num) bounded
          gcongr
      _ ≤ ((2 ^ 52 : ℕ) : ℝ) * 2 ^ (148 : ℤ) := by norm_num
  refine (rank_mono _ bound).trans_lt ?_
  rw [rank_of_fits large]
  decide +kernel

/-- What a numeral is read as, if it spells a real in a window. -/
theorem value_in_window {low high : ℝ} (window : Window m e low high) (fits : Fits .binary32 m e)
    (bounded : e ≤ 104) {n : Numeral} (above : low * 2 ^ e ≤ n.digits * 10 ^ n.exponent)
    (below : n.digits * 10 ^ n.exponent ≤ high * 2 ^ e) :
    ∃ (m' : ℕ) (e' : ℤ) (pos : 0 < m'),
      n.value.toModel.unpack = .finite (if n.negative then .negative else .positive) m' e' pos ∧
      rank .binary32 (m' * 2 ^ e') = (e - Format.binary32.minExponent).toNat * binade .binary32 + m := by
  have word := ofScientific_word ((exact_ge window.low_exact).trans above)
  have finite := window_bounded window fits bounded
  have least := rank_exact_pos window.low_exact
  have rising := rank_mono .binary64 above
  have rising' := rank_mono .binary64 below
  have decoded := decoded_unpack (by decide : 2 ≤ Format.binary64.exponentBits)
    (b := pack .binary64 (ofScientific .binary64 n.digits n.exponent))
    (word.trans_le (min_le_right _ _))
  obtain ⟨m', e', pos, shape, low_le, le_high⟩ :=
    decoded_between window.low_exact window.high_exact above below finite word decoded (by omega)
  have unsigned : (Float.ofModel (Float.Model.ofScientific n.digits n.exponent)).toModel.unpack =
      .finite .positive m' e' pos := shape
  have same : rank .binary32 (m' * 2 ^ e') =
      (e - Format.binary32.minExponent).toNat * binade .binary32 + m := by
    apply le_antisymm
    · rw [← rank_of_takesIn (by decide) fits window.high_taken]
      exact rank_mono _ le_high
    · rw [← rank_of_takesIn (by decide) fits window.low_taken]
      exact rank_mono _ low_le
  refine ⟨m', e', pos, ?_, same⟩
  unfold Numeral.value
  dsimp only
  split_ifs
  · exact unpack_neg unsigned
  · exact unsigned

/-- The numbers that do not come back. -/
def Stray (x : Float32) : Prop :=
  ∃ sign pos, x.toModel.unpack = .finite sign 11420669 (-107) pos

theorem eq_of_bits {x y : Float32} (same : x.toModel.toBits.toBitVec = y.toModel.toBits.toBitVec) :
    x = y := by
  obtain ⟨⟨bits, valid⟩⟩ := x
  obtain ⟨⟨bits', valid'⟩⟩ := y
  obtain rfl : bits = bits' := UInt32.toBitVec_inj.mp same
  rfl

/-- A numeral that spells the shortest decimal of a number, with its sign, is
read as that number. -/
theorem narrow_value {x : Float32} {sign : UnpackedFloat.Sign} {pos : 0 < m}
    (shape : x.toModel.unpack = .finite sign m e pos) (regular : ¬ Stray x) (tie : Tie)
    {n : Numeral} (signed : sign = if n.negative then .negative else .positive)
    (spelled : n.digits * 10 ^ n.exponent = ((Span.ofBinary .binary32 m e).shortest tie).real) :
    n.value.isFinite = true ∧ narrow n.value = x := by
  have wide : 2 ≤ Format.binary32.exponentBits := by decide
  obtain ⟨-, fits, place⟩ := fits_of_finite wide shape
  have inside := unsigned_lt shape
  have bounded : e ≤ 104 := by
    have normal : 2 ^ 23 ≤ m ∨ e = -149 := fits.normal
    have limit : (e - -149).toNat * 2 ^ 23 + m < 255 * 2 ^ 23 := place.trans_lt inside
    omega
  have ordinary : ¬ (e = -107 ∧ m = 11420669) := by
    rintro ⟨rfl, rfl⟩
    exact regular ⟨sign, pos, shape⟩
  obtain ⟨low, high, window, above, below⟩ := shortest_in_window fits bounded ordinary tie
  rw [← spelled] at above below
  obtain ⟨m', e', pos', read, same⟩ := value_in_window window fits bounded above below
  rw [← signed] at read
  constructor
  · change n.value.toModel.unpack.isFinite = true
    rw [read]
    rfl
  · have packed := pack_rounded wide (rounded_round .positive pos' e')
    rw [same, place, min_eq_left inside.le] at packed
    have back := pack_of_place wide shape (round_is_number .positive m' e') packed
    rw [← round_withSign] at back
    unfold narrow
    rw [read]
    exact eq_of_bits back

end Sentry
