import Sentry.Frame
import Sentry.Proofs.Number.Exactness

/-! Frames of equal length. Adding up steps rounds at every frame, multiplying rounds
once; but up to `2 ^ 29` frames a multiple of a step has at most fifty-three bits, so
that neither rounds at all and the two clocks agree in every bit. -/
namespace Sentry
open Rounding
open Float.Model.UnpackedFloat (Sign)

variable {dt : Float32} {sign : Sign} {k : ℕ}

theorem held_multiple (finite : dt.isFinite = true) (few : k ≤ 2 ^ 29) :
    Held .binary64 (k * absolute dt) := by
  obtain ⟨m, e, short, low, high, value⟩ := absolute_short finite
  have bits : k * m < 2 ^ 53 := by
    calc k * m ≤ 2 ^ 29 * m := Nat.mul_le_mul_right m few
      _ < 2 ^ 29 * 2 ^ 24 := Nat.mul_lt_mul_of_pos_left short (by norm_num)
      _ = 2 ^ 53 := by norm_num
  have held : Held .binary64 ((k * m : ℕ) * 2 ^ e) :=
    held_of_short bits (by omega) (by omega)
  rwa [Nat.cast_mul, mul_assoc, ← value] at held

/-- The clock of a frame shows the exact multiple of the step. -/
theorem fixedStep_shows (finite : dt.isFinite = true) (step : Shows (widen dt) sign (absolute dt))
    (few : k ≤ 2 ^ 29) : Shows (Frame.fixedStep (.ofNat k) dt).time sign (k * absolute dt) :=
  shows_product (shows_natural (by omega)) step (held_multiple finite few)

/-- The frame after the one of a number is the one of the next number. -/
theorem next_fixedStep (finite : dt.isFinite = true) (few : k + 1 ≤ 2 ^ 29) :
    (Frame.fixedStep (.ofNat k) dt).next = Frame.fixedStep (.ofNat (k + 1)) dt := by
  obtain ⟨sign, step⟩ := shows_widen finite
  have held := held_multiple finite few
  have here := fixedStep_shows finite step (Nat.le_of_succ_le few)
  have there := fixedStep_shows finite step few
  rw [Nat.cast_succ, add_one_mul] at held there
  have time : (Frame.fixedStep (.ofNat k) dt).time + widen dt =
      (Frame.fixedStep (.ofNat (k + 1)) dt).time :=
    shows_unique (shows_sum here step held) there
  have tick : UInt64.ofNat k + 1 = UInt64.ofNat (k + 1) := (UInt64.ofNat_add k 1).symm
  calc (Frame.fixedStep (.ofNat k) dt).next
      = ⟨.ofNat k + 1, dt, (Frame.fixedStep (.ofNat k) dt).time + widen dt⟩ := rfl
    _ = Frame.fixedStep (.ofNat (k + 1)) dt := by
      rw [tick, time]
      rfl

/-- Steps do not drift. From any frame of a clock with a finite step, going on from
frame to frame leads to the frames of the same clock, up to frame `2 ^ 29`. -/
theorem steps_do_not_drift (finite : dt.isFinite = true) (t n : ℕ) (few : t + n ≤ 2 ^ 29) :
    Frame.next^[n] (Frame.fixedStep (.ofNat t) dt) = Frame.fixedStep (.ofNat (t + n)) dt := by
  induction n with
  | zero => rfl
  | succ n ih =>
    rw [Function.iterate_succ_apply', ih (Nat.le_of_succ_le few)]
    exact next_fixedStep finite few

/-- A tenth of a second, which binary numbers only approach, half a billion times. -/
theorem tenths_do_not_drift :
    (0.1 : Float32).isFinite = true ∧ 1 + 536870911 ≤ 2 ^ 29 ∧
      Frame.next^[536870911] (Frame.fixedStep (.ofNat 1) 0.1) =
        Frame.fixedStep (.ofNat (1 + 536870911)) 0.1 :=
  ⟨by decide +kernel, by norm_num, steps_do_not_drift (by decide +kernel) 1 536870911 (by norm_num)⟩

end Sentry
