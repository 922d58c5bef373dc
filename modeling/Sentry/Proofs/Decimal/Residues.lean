import Mathlib.Tactic

/-! Multiples and their rests. Whether one of the first multiples of a step
leaves a rest within given bounds is decided as fast as a greatest common divisor
is found: a multiple that leaves such a rest after so many turns of the modulus
is a number of turns that leaves such a rest modulo the step. -/
namespace Sentry.Residues

/-- The multiple lies within the bounds, after some turns of the modulus. -/
def Hits (step modulus low high count : Nat) : Prop :=
  ∃ turns, low + turns * modulus ≤ count * step ∧ count * step ≤ high + turns * modulus

/-- No multiple below `count` hits the bounds. A step of more than half a turn is
taken backwards. If a multiple lies within the bounds before the first turn, then
it is the first to do so; if none does, then the turns are counted instead. -/
def avoids : Nat → Nat → Nat → Nat → Nat → Nat → Bool
  | 0, _, _, _, _, _ => false
  | fuel + 1, step, modulus, low, high, count =>
    if high < low ∨ (count - 1) * step < low then true
    else if modulus < 2 * step then
      avoids fuel (modulus - step) modulus (modulus - high) (modulus - low) count
    else
      let first := (low + step - 1) / step
      if first * step ≤ high then count ≤ first
      else
        avoids fuel (step - 1 - (modulus - 1) % step) step (low % step) (high % step)
          (((count - 1) * step - low) / modulus + 1)

/-! ## Two ways to count -/

section
variable {step modulus low high count : Nat}

/-- Taken backwards, a step hits the bounds from the other side. -/
theorem hits_backwards (positive : 0 < low) (inside : high < modulus) (small : step < modulus)
    (hits : Hits step modulus low high count) :
    Hits (modulus - step) modulus (modulus - high) (modulus - low) count := by
  obtain ⟨turns, above, below⟩ := hits
  have fewer : turns < count := by
    refine Nat.lt_of_mul_lt_mul_right (a := modulus) ?_
    calc turns * modulus < count * step := by omega
      _ ≤ count * modulus := Nat.mul_le_mul_left count small.le
  obtain ⟨left, rfl⟩ := Nat.exists_eq_add_of_lt fewer
  refine ⟨left, ?_⟩
  have whole : (turns + left + 1) * (modulus - step) + (turns + left + 1) * step =
      left * modulus + modulus + turns * modulus := by
    rw [← mul_add, Nat.sub_add_cancel small.le]
    ring
  omega

/-- The number of turns after which a multiple hits leaves such a rest itself. -/
theorem hits_turns (positive : 0 < step) (turned : 0 < modulus)
    (bounds : low ≤ high) (apart : high < (low + step - 1) / step * step)
    (hits : Hits step modulus low high count) :
    0 < low % step ∧ ∃ turns ≤ (count * step - low) / modulus,
      Hits (step - 1 - (modulus - 1) % step) step (low % step) (high % step) turns := by
  have low_parts := Nat.div_add_mod' low step
  have low_rest := Nat.mod_lt low positive
  have off : 0 < low % step := by
    by_contra whole
    have start : (low + step - 1) / step = low / step := by
      rw [Nat.div_eq_iff positive]
      constructor <;> omega
    rw [start] at apart
    omega
  have next : (low + step - 1) / step = low / step + 1 := by
    rw [Nat.div_eq_iff positive, add_one_mul]
    constructor <;> omega
  rw [next, add_one_mul] at apart
  have same : high / step = low / step := by
    rw [Nat.div_eq_iff positive]
    constructor <;> omega
  have high_parts := Nat.div_add_mod' high step
  rw [same] at high_parts
  have back_parts := Nat.div_add_mod' (modulus - 1) step
  have back_rest := Nat.mod_lt (modulus - 1) positive
  obtain ⟨turns, above, below⟩ := hits
  -- `lap` steps are a turn and what the turns themselves step by
  let lap := (modulus - 1) / step + 1
  have lapped : modulus + (step - 1 - (modulus - 1) % step) = lap * step := by
    rw [add_one_mul]
    omega
  have total : turns * modulus + turns * (step - 1 - (modulus - 1) % step) =
      turns * lap * step := by
    rw [← mul_add, lapped, mul_assoc]
  have enough : count ≤ low / step + turns * lap := by
    refine Nat.le_of_lt_succ (Nat.lt_of_mul_lt_mul_right (a := step) ?_)
    rw [Nat.succ_eq_add_one, add_one_mul, add_mul]
    omega
  obtain ⟨left, split⟩ := Nat.exists_eq_add_of_le enough
  have product : low / step * step + turns * lap * step = count * step + left * step := by
    rw [← add_mul, ← add_mul, split]
  refine ⟨off, turns, ?_, left, by omega, by omega⟩
  rw [Nat.le_div_iff_mul_le turned]
  omega

end

/-- What the check clears is not hit. -/
theorem avoids_sound {fuel step modulus low high count : Nat}
    (clear : avoids fuel step modulus low high count = true) (positive : 0 < low)
    (inside : high < modulus) (small : step < modulus) {tried : Nat} (within : tried < count) :
    ¬ Hits step modulus low high tried := by
  induction fuel generalizing step modulus low high count tried with
  | zero => simp [avoids] at clear
  | succ fuel ih =>
    intro hits
    obtain ⟨turns, above, below⟩ := id hits
    have bounds : low ≤ high := by omega
    have least : tried * step ≤ (count - 1) * step :=
      Nat.mul_le_mul_right step (Nat.le_sub_one_of_lt within)
    rw [avoids, if_neg (by omega)] at clear
    dsimp only at clear
    split_ifs at clear with wide
    · exact ih clear (by omega) (by omega) (by omega) within
        (hits_backwards positive inside small hits)
    · have reached : (low + step - 1) / step ≤ tried := by
        have step_positive : 0 < step := by
          by_contra zero
          obtain rfl : step = 0 := by omega
          omega
        rw [Nat.div_le_iff_le_mul step_positive]
        omega
      have clear := of_decide_eq_true clear
      omega
    · have step_positive : 0 < step := by
        by_contra zero
        obtain rfl : step = 0 := by omega
        omega
      obtain ⟨off, turns, few, again⟩ :=
        hits_turns step_positive (by omega) bounds (by omega) hits
      have fewer : turns < ((count - 1) * step - low) / modulus + 1 := by
        have := Nat.div_le_div_right (c := modulus) (Nat.sub_le_sub_right least low)
        omega
      have rest := Nat.mod_lt high step_positive
      exact ih clear off rest (by omega) fewer again

/-- No multiple from `start` up to `stop` hits the bounds. -/
def avoidsFrom (start stop step modulus low high : Nat) : Bool :=
  let offset := start * step % modulus
  if offset < low then
    avoids 64 (step % modulus) modulus (low - offset) (high - offset) (stop - start)
  else if high < offset then
    avoids 64 (step % modulus) modulus (low + modulus - offset) (high + modulus - offset)
      (stop - start)
  else false

theorem avoidsFrom_sound {start stop step modulus low high : Nat}
    (clear : avoidsFrom start stop step modulus low high = true) (inside : high < modulus)
    {tried : Nat} (from_start : start ≤ tried) (before_stop : tried < stop) :
    ¬ Hits step modulus low high tried := by
  rintro ⟨turns, above, below⟩
  obtain ⟨more, rfl⟩ := Nat.exists_eq_add_of_le from_start
  have small : step % modulus < modulus := Nat.mod_lt step (by omega)
  have offset_small : start * step % modulus < modulus := Nat.mod_lt _ (by omega)
  obtain ⟨laps, total⟩ : ∃ laps, (start + more) * step =
      start * step % modulus + more * (step % modulus) + laps * modulus := by
    have first := Nat.div_add_mod' (start * step) modulus
    have second : more * (step / modulus) * modulus + more * (step % modulus) = more * step := by
      rw [mul_assoc, ← mul_add, Nat.div_add_mod']
    refine ⟨start * step / modulus + more * (step / modulus), ?_⟩
    rw [add_mul, add_mul]
    omega
  rw [total] at above below
  unfold avoidsFrom at clear
  dsimp only at clear
  split_ifs at clear with early late
  · have enough : laps ≤ turns := by
      refine Nat.le_of_lt_succ (Nat.lt_of_mul_lt_mul_right (a := modulus) ?_)
      rw [Nat.succ_eq_add_one, add_one_mul]
      omega
    obtain ⟨left, rfl⟩ := Nat.exists_eq_add_of_le enough
    rw [add_mul] at above below
    exact avoids_sound clear (by omega) (by omega) small (show more < _ by omega)
      ⟨left, by omega, by omega⟩
  · have enough : laps < turns := by
      refine Nat.lt_of_mul_lt_mul_right (a := modulus) ?_
      omega
    obtain ⟨left, rfl⟩ := Nat.exists_eq_add_of_lt enough
    rw [add_one_mul, add_mul] at above below
    exact avoids_sound clear (by omega) (by omega) small (show more < _ by omega)
      ⟨left, by omega, by omega⟩

end Sentry.Residues
