import Sentry.Proofs.Number.Packing

/-! What rounds to a stored number, and where rounding is exact. A stored number
takes in the reals up to half a gap on either side, where the gap below a power
of two is half as wide, and an even significand also owns the ends. -/
namespace Sentry.Rounding
open Float.Model (Format UnpackedFloat)

variable {format : Format} {m : ℕ} {e : ℤ} {x y : ℝ}

/-! ## Exact numbers -/

/-- A short significand can be made long enough, or brought to the lowest
exponent. -/
theorem exact_of_short (pos : 0 < m) (short : m < 2 * binade format)
    (low : format.minExponent ≤ e) : Exact format (m * 2 ^ e) := by
  have log : m.log2 ≤ format.mantissaBitsWithoutImplicit := by
    rw [← Nat.lt_succ_iff, Nat.log2_lt pos.ne', Nat.succ_eq_add_one, pow_succ']
    exact short
  let lift := min (format.mantissaBitsWithoutImplicit - m.log2) (e - format.minExponent).toNat
  have size := (Nat.log2_eq_iff pos.ne').mp rfl
  have value : (m * 2 ^ e : ℝ) = ((m * 2 ^ lift : ℕ) : ℝ) * 2 ^ (e - lift) := by
    rw [zpow_sub₀ (by norm_num), zpow_natCast]
    push_cast
    field_simp
  refine ⟨m * 2 ^ lift, e - lift, ⟨by positivity, ?_, by omega, ?_⟩, value⟩
  · calc m * 2 ^ lift < 2 ^ (m.log2 + 1) * 2 ^ lift :=
          Nat.mul_lt_mul_of_pos_right size.2 (by positivity)
      _ = 2 ^ (m.log2 + 1 + lift) := (pow_add _ _ _).symm
      _ ≤ 2 ^ (format.mantissaBitsWithoutImplicit + 1) :=
          Nat.pow_le_pow_right (by norm_num) (by omega)
      _ = 2 * binade format := pow_succ' _ _
  · rcases le_total (format.mantissaBitsWithoutImplicit - m.log2)
      (e - format.minExponent).toNat with near | far
    · left
      calc binade format = 2 ^ (m.log2 + lift) := by
            rw [binade]
            congr 1
            omega
        _ = 2 ^ m.log2 * 2 ^ lift := pow_add _ _ _
        _ ≤ m * 2 ^ lift := Nat.mul_le_mul_right _ size.1
    · right
      omega

/-- A stored number does not have the place of zero. -/
theorem rank_exact_pos (exact : Exact format x) : 0 < rank format x := by
  obtain ⟨m, e, fits, rfl⟩ := exact
  rw [rank_of_fits fits]
  exact Nat.add_pos_right _ fits.pos

/-- Stored numbers are ordered like their places. -/
theorem exact_le_of_rank_le (left : Exact format x) (right : Exact format y)
    (le : rank format x ≤ rank format y) : x ≤ y := by
  by_contra above
  have same : rank format x = rank format y :=
    le.antisymm (rank_mono format (le_of_not_ge above))
  obtain ⟨m, e, fits, rfl⟩ := left
  obtain ⟨m', e', fits', rfl⟩ := right
  rw [rank_of_fits fits, rank_of_fits fits'] at same
  rcases lt_trichotomy e e' with lt | rfl | gt
  · exact absurd same (place_lt fits fits' lt).ne
  · obtain rfl : m = m' := by omega
    exact above le_rfl
  · exact absurd same (place_lt fits' fits gt).ne'

theorem exact_unique (left : Exact format x) (right : Exact format y)
    (same : rank format x = rank format y) : x = y :=
  le_antisymm (exact_le_of_rank_le left right same.le) (exact_le_of_rank_le right left same.ge)

/-- A number stored for a real between two exact ones lies between them. -/
theorem decoded_between {n : ℕ} {u : UnpackedFloat} {low high : ℝ} (lower : Exact format low)
    (upper : Exact format high) (above : low ≤ x) (below : x ≤ high)
    (finite : rank format high < ceiling format) (place : n = min (rank format x) (ceiling format))
    (decoded : Decoded format n u) (positive : 0 < n) :
    ∃ (m : ℕ) (e : ℤ) (pos : 0 < m), u = .finite .positive m e pos ∧
      low ≤ m * 2 ^ e ∧ m * 2 ^ e ≤ high := by
  have rising := rank_mono format above
  have rising' := rank_mono format below
  cases decoded with
  | zero least => omega
  | infinite top => omega
  | @finite m e fits stored _ =>
    have exact : Exact format (m * 2 ^ e) := ⟨m, e, fits, rfl⟩
    have same : rank format (m * 2 ^ e) = rank format x := by
      rw [rank_of_fits fits]
      omega
    exact ⟨m, e, fits.pos, rfl, exact_le_of_rank_le lower exact (by omega),
      exact_le_of_rank_le exact upper (by omega)⟩

/-! ## How far rounding goes -/

theorem le_nearest_add_half (y : ℝ) : y ≤ nearest y + 1 / 2 := by
  unfold nearest
  split_ifs with below half
  · exact below.le
  · have rest : (0 : ℝ) ≤ (⌊y⌋₊ % 2 : ℕ) := Nat.cast_nonneg _
    push_cast at rest ⊢
    linarith
  · have above := Nat.lt_floor_add_one y
    push_cast
    linarith

/-- The nearest multiple of the gap is the stored number at the place of a real. -/
theorem nearest_stored (positive : 0 < x) (present : 0 < nearest (x / 2 ^ spacing format x)) :
    let stored : ℝ := nearest (x / 2 ^ spacing format x) * 2 ^ spacing format x
    Exact format stored ∧ rank format stored = rank format x := by
  intro stored
  have low := spacing_ge format x
  have place := rank_of_pos format positive
  rcases (nearest_scaled_le format x).lt_or_eq with lt | full
  · have normal : binade format ≤ nearest (x / 2 ^ spacing format x) ∨
        spacing format x = format.minExponent := by
      rcases low.lt_or_eq with above | bottom
      · exact .inl (le_nearest_scaled positive above)
      · exact .inr bottom.symm
    have fits : Fits format (nearest (x / 2 ^ spacing format x)) (spacing format x) :=
      ⟨present, lt, low, normal⟩
    exact ⟨⟨_, _, fits, rfl⟩, (rank_of_fits fits).trans place.symm⟩
  · -- the multiple is the next power of two
    have some_place := binade_pos format
    have fits : Fits format (binade format) (spacing format x + 1) :=
      ⟨some_place, by omega, by omega, .inl le_rfl⟩
    have value : stored = binade format * 2 ^ (spacing format x + 1) := by
      simp only [stored]
      rw [full, zpow_add_one₀ (by norm_num)]
      push_cast
      ring
    rw [value, place, full, rank_of_fits fits]
    refine ⟨⟨_, _, fits, rfl⟩, ?_⟩
    rw [show (spacing format x + 1 - format.minExponent).toNat =
      (spacing format x - format.minExponent).toNat + 1 by omega]
    ring

/-- A stored number lies at most half a gap below the reals at its place. -/
theorem half_gap_below (positive : 0 < x) (exact : Exact format y)
    (same : rank format y = rank format x) : x - 2 ^ spacing format x / 2 ≤ y := by
  have gap : (0 : ℝ) < 2 ^ spacing format x := by positivity
  have near := le_nearest_add_half (x / 2 ^ spacing format x)
  rw [div_le_iff₀ gap, add_mul] at near
  rcases Nat.eq_zero_or_pos (nearest (x / 2 ^ spacing format x)) with lost | present
  · obtain ⟨m, e, fits, rfl⟩ := exact
    have above : (0 : ℝ) ≤ m * 2 ^ e := by positivity
    rw [lost, Nat.cast_zero] at near
    linarith
  · obtain ⟨stored, place⟩ := nearest_stored positive present
    rw [exact_unique exact stored (same.trans place.symm)]
    linarith

/-! ## What rounds to a number -/

theorem nearest_eq (upper : y < m + 1 / 2 ∨ y = m + 1 / 2 ∧ m % 2 = 0)
    (lower : (m : ℝ) - 1 / 2 < y ∨ y = m - 1 / 2 ∧ m % 2 = 0) (nonneg : 0 ≤ y) :
    nearest y = m := by
  have high : y ≤ m + 1 / 2 := upper.elim le_of_lt fun half => half.1.le
  have low : (m : ℝ) - 1 / 2 ≤ y := lower.elim le_of_lt fun half => half.1.ge
  rcases le_or_gt (m : ℝ) y with reached | short
  · have floor : ⌊y⌋₊ = m := (Nat.floor_eq_iff nonneg).mpr ⟨reached, by linarith⟩
    rw [nearest, floor]
    rcases upper with upper | ⟨half, even⟩
    · rw [if_pos upper]
    · rw [if_neg (by linarith), if_pos half, even, add_zero]
  · have pos : 0 < m := by
      rw [Nat.pos_iff_ne_zero]
      rintro rfl
      rw [Nat.cast_zero] at short
      linarith
    obtain ⟨k, rfl⟩ := Nat.exists_eq_add_of_lt pos
    rw [zero_add] at *
    push_cast at *
    have floor : ⌊y⌋₊ = k := (Nat.floor_eq_iff nonneg).mpr ⟨by linarith, short⟩
    rw [nearest, floor]
    rcases lower with lower | ⟨half, even⟩
    · rw [if_neg (by linarith), if_neg (by linarith)]
    · rw [if_neg (by linarith), if_pos (by linarith)]
      omega

/-- The place of a real whose gap is known. -/
theorem rank_scaled (low : format.minExponent ≤ e) (positive : 0 < y)
    (short : y < 2 * binade format) (normal : (binade format : ℝ) ≤ y ∨ e = format.minExponent) :
    rank format (y * 2 ^ e) = (e - format.minExponent).toNat * binade format + nearest y := by
  have here : 0 < y * (2 : ℝ) ^ e := by positivity
  have upper : Int.log 2 (y * 2 ^ e) < format.mantissaBitsWithoutImplicit + 1 + e := by
    rw [← Int.lt_zpow_iff_log_lt (by norm_num) here, Nat.cast_ofNat, zpow_add₀ (by norm_num),
      zpow_add₀ (by norm_num), zpow_one, zpow_natCast, mul_comm _ (2 : ℝ)]
    have short : y < 2 * 2 ^ format.mantissaBitsWithoutImplicit := by
      simpa [binade] using short
    gcongr
  have spaced : spacing format (y * 2 ^ e) = e := by
    unfold spacing Format.targetExponent Format.mantissaBits
    push_cast
    rcases normal with normal | lowest
    · have lower : format.mantissaBitsWithoutImplicit + e ≤ Int.log 2 (y * 2 ^ e) := by
        rw [← Int.zpow_le_iff_le_log (by norm_num) here, Nat.cast_ofNat, zpow_add₀ (by norm_num),
          zpow_natCast]
        have normal : (2 : ℝ) ^ format.mantissaBitsWithoutImplicit ≤ y := by
          simpa [binade] using normal
        gcongr
      omega
    · omega
  rw [rank_of_pos format here, spaced, mul_div_cancel_right₀ _ (by positivity)]

/-- The reals that a stored number takes in. -/
structure TakesIn (format : Format) (m : ℕ) (e : ℤ) (y : ℝ) : Prop where
  upper : y < m + 1 / 2 ∨ y = m + 1 / 2 ∧ m % 2 = 0
  lower : (m : ℝ) - 1 / 2 < y ∨ y = m - 1 / 2 ∧ m % 2 = 0
  /-- Below a power of two the gap is half as wide. -/
  gap : m = binade format → format.minExponent < e → (m : ℝ) - 1 / 4 ≤ y

/-- They have the place of that number. -/
theorem rank_of_takesIn (even : binade format % 2 = 0) (fits : Fits format m e)
    (takesIn : TakesIn format m e y) :
    rank format (y * 2 ^ e) = (e - format.minExponent).toNat * binade format + m := by
  obtain ⟨upper, lower, gap⟩ := takesIn
  have one : (1 : ℝ) ≤ m := by exact_mod_cast fits.pos
  have whole : (m : ℝ) + 1 ≤ 2 * binade format := by exact_mod_cast fits.lt
  have low : (m : ℝ) - 1 / 2 ≤ y := lower.elim le_of_lt fun half => half.1.ge
  have high : y ≤ m + 1 / 2 := upper.elim le_of_lt fun half => half.1.le
  by_cases normal : (binade format : ℝ) ≤ y ∨ e = format.minExponent
  · rw [rank_scaled fits.low (by linarith) (by linarith) normal,
      nearest_eq upper lower (by linarith)]
  · obtain ⟨short, raised⟩ := not_or.mp normal
    have lowest := fits.low
    have normal := fits.normal.resolve_right raised
    obtain rfl : m = binade format := by
      refine le_antisymm (Nat.le_of_lt_succ ?_) normal
      have : (m : ℝ) < binade format + 1 := by linarith
      exact_mod_cast this
    have near := gap rfl (by omega)
    -- the real lies below the power of two, where the gap is half as wide
    have doubled : y * (2 : ℝ) ^ e = 2 * y * 2 ^ (e - 1) := by
      rw [zpow_sub₀ (by norm_num), zpow_one]
      ring
    have closest : nearest (2 * y) = 2 * binade format := by
      apply nearest_eq
      · left
        push_cast
        linarith
      · rcases near.lt_or_eq with inside | half
        · left
          push_cast
          linarith
        · right
          push_cast
          exact ⟨by linarith, by omega⟩
      · linarith
    rw [doubled, rank_scaled (by omega) (by linarith) (by linarith) (.inl (by linarith)), closest]
    have steps : (e - format.minExponent).toNat = (e - 1 - format.minExponent).toNat + 1 := by
      omega
    rw [steps]
    ring

/-- A real more than half a gap above a stored number has a later place. -/
theorem lt_rank_of_half_gap (fits : Fits format m e) (beyond : (m : ℝ) + 1 / 2 < y) :
    (e - format.minExponent).toNat * binade format + m < rank format (y * 2 ^ e) := by
  have whole : (m : ℝ) + 1 ≤ 2 * binade format := by exact_mod_cast fits.lt
  -- a real that is surely nearest to the next number
  let z := min y (m + 3 / 4)
  have above : (m : ℝ) + 1 / 2 < z := lt_min beyond (by linarith)
  have below : z ≤ m + 3 / 4 := min_le_right _ _
  have positive : 0 < z := (by positivity : (0 : ℝ) < m + 1 / 2).trans above
  have normal : (binade format : ℝ) ≤ z ∨ e = format.minExponent := by
    refine fits.normal.imp_left fun long => ?_
    have long : (binade format : ℝ) ≤ m := by exact_mod_cast long
    linarith
  have closest : nearest z = m + 1 := by
    refine nearest_eq (.inl ?_) (.inl ?_) positive.le
    · push_cast
      linarith
    · push_cast
      linarith
  calc (e - format.minExponent).toNat * binade format + m
      < (e - format.minExponent).toNat * binade format + nearest z := by omega
    _ = rank format (z * 2 ^ e) := (rank_scaled fits.low positive (by linarith) normal).symm
    _ ≤ rank format (y * 2 ^ e) := by
      have least : z ≤ y := min_le_left _ _
      exact rank_mono _ (by gcongr)

end Sentry.Rounding
