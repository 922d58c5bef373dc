import Sentry.Proofs.Number.Differences
import Sentry.Proofs.Number.Exactness
import Sentry.Proofs.Timer.Clock

/-! The times of a queue stay finite, however long it runs. There is a clock reading
so large that neither a delay nor a step moves it, and no run gets beyond it. Below
it the largest step always moves the horizon, so whatever is pending can still fire. -/
namespace Sentry.Timer
open Float.Model (Format UnpackedFloat)
open Rounding

/-! ## Where time stands still -/

/-- The clock reading that no binary32 number moves, 2 ^ 181. -/
def standstill : Float :=
  .ofBits 0x4B40000000000000

/-- The largest step. -/
def longest : Float32 :=
  .ofBits 0x7F7FFFFF

variable {x : Float}

theorem moment_standstill : IsMoment standstill := by decide

theorem word_standstill : word standstill = (129 - -1074 : ℤ).toNat * 2 ^ 52 + 2 ^ 52 := by
  decide +kernel

theorem standstill_finite : standstill.isFinite = true :=
  (finite_iff_word moment_standstill).mpr (by decide +kernel)

theorem magnitude_standstill : magnitude .binary64 standstill.toModel.unpack = 2 ^ 181 := by
  have shape : standstill.toModel.unpack = .finite .positive (2 ^ 52) 129 (by decide) := rfl
  rw [shape, magnitude]
  norm_num

theorem absolute_le_longest {d : Float32} (finite : d.isFinite = true) :
    absolute d ≤ (2 ^ 24 - 1) * 2 ^ 104 := by
  obtain ⟨m, e, short, -, high, value⟩ := absolute_short finite
  have significand : (m : ℝ) ≤ 2 ^ 24 - 1 := by
    have short : (m : ℝ) + 1 ≤ 2 ^ 24 := by exact_mod_cast short
    linarith
  have scale : (2 : ℝ) ^ e ≤ 2 ^ 104 := by
    rw [← zpow_natCast]
    exact zpow_le_zpow_right₀ (by norm_num) high
  rw [value]
  gcongr

theorem magnitude_effectiveDelay (d : Float32) :
    magnitude .binary64 (Queue.effectiveDelay d).toModel.unpack ≤ (2 ^ 24 - 1) * 2 ^ 104 := by
  have nothing : magnitude .binary64 (0 : Float).toModel.unpack ≤ (2 ^ 24 - 1) * 2 ^ 104 := by
    have shape : (0 : Float).toModel.unpack = .zero .positive := rfl
    rw [shape, magnitude_zero]
    norm_num
  by_cases finite : d.isFinite
  · by_cases negative : d < 0
    · rw [Queue.effectiveDelay, if_pos finite, larger32, if_pos negative]
      exact nothing
    · rw [effectiveDelay_of_nonneg finite negative]
      obtain ⟨sign, shows⟩ := shows_widen finite
      rw [magnitude_shown shows]
      exact absolute_le_longest finite
  · rw [Queue.effectiveDelay, if_neg finite]
    exact nothing

theorem standstill_add (d : Float32) : standstill + Queue.effectiveDelay d = standstill := by
  rcases effectiveDelay_is_delay d with moment | zero
  · have size := magnitude_effectiveDelay d
    have nonneg := magnitude_nonneg .binary64 (Queue.effectiveDelay d).toModel.unpack
    apply eq_of_word_eq
    rw [word_add moment_standstill moment, magnitude_standstill]
    generalize magnitude .binary64 (Queue.effectiveDelay d).toModel.unpack = delay at size nonneg
    have fits : Fits .binary64 (2 ^ 52) 129 := ⟨by decide, by decide, by decide, .inl le_rfl⟩
    -- the delay is less than half the gap above the standstill
    have takesIn : TakesIn .binary64 (2 ^ 52) 129 (2 ^ 52 + delay / 2 ^ (129 : ℤ)) := by
      have quotient : 0 ≤ delay / 2 ^ (129 : ℤ) := by positivity
      refine ⟨.inl ?_, .inl ?_, fun _ _ => ?_⟩
      · have small : delay / 2 ^ (129 : ℤ) < 1 / 2 := by
          rw [div_lt_iff₀ (by positivity)]
          norm_num
          linarith
        push_cast
        linarith
      · push_cast
        linarith
      · push_cast
        linarith
    have place := rank_of_takesIn (by decide) fits takesIn
    rw [add_mul, div_mul_cancel₀ _ (by positivity)] at place
    have same : (2 ^ 52 * 2 ^ (129 : ℤ) : ℝ) = 2 ^ 181 := by norm_num
    rw [same] at place
    rw [place, word_standstill]
    decide +kernel
  · exact add_zero_delay moment_standstill zero

/-- A delay takes no time past the standstill. -/
theorem add_delay_le (moment : IsMoment x) (le : x ≤ standstill) (d : Float32) :
    x + Queue.effectiveDelay d ≤ standstill := by
  have moved := add_le_add_right moment moment_standstill (effectiveDelay_is_delay d) le
  rwa [standstill_add] at moved

theorem step_is_effective {dt : Float32} (step : Queue.isStep dt = true) :
    widen dt = Queue.effectiveDelay dt := by
  unfold Queue.isStep at step
  rw [Bool.and_eq_true, decide_eq_true_eq] at step
  exact (effectiveDelay_of_nonneg step.1 (not_neg_of_pos step.2)).symm

theorem longest_is_step : Queue.isStep longest = true := by decide +kernel

theorem magnitude_longest :
    magnitude .binary64 (widen longest).toModel.unpack = (2 ^ 24 - 1) * 2 ^ 104 := by
  obtain ⟨sign, shows⟩ := shows_widen (d := longest) (by decide +kernel)
  have shape : longest.toModel.unpack = .finite .positive (2 ^ 24 - 1) 104 (by decide) := rfl
  rw [magnitude_shown shows, absolute, shape, magnitude]
  norm_num

/-- Below the standstill the largest step moves every time. -/
theorem lt_add_longest (moment : IsMoment x) (below : x < standstill) :
    x < x + widen longest := by
  have wide : IsMoment (widen longest) := by decide +kernel
  have decoded := moment.decoded
  rw [lt_iff_word moment moment_standstill, word_standstill] at below
  rw [lt_iff_word moment (moment_add moment (.inl wide)), word_add moment wide, magnitude_longest]
  generalize x.toModel.unpack = u at decoded ⊢
  generalize word x = n at decoded below ⊢
  refine lt_min ?_ (below.trans_le (by decide +kernel))
  cases decoded with
  | zero least =>
    rw [least, magnitude_zero, zero_add, ← magnitude_longest, ← word_eq_rank wide]
    decide +kernel
  | infinite top =>
    rw [top] at below
    exact absurd below (by decide +kernel)
  | @finite m e fits place _ =>
    have small : e ≤ 128 := by
      have normal : 2 ^ 52 ≤ m ∨ e = -1074 := fits.normal
      have here : (e - -1074).toNat * 2 ^ 52 + m = n := place
      omega
    have gap : (2 : ℝ) ^ e ≤ 2 ^ 128 := by
      rw [← zpow_natCast]
      exact zpow_le_zpow_right₀ (by norm_num) small
    have beyond : (m : ℝ) + 1 / 2 < m + (2 ^ 24 - 1) * 2 ^ 104 / 2 ^ e := by
      rw [add_lt_add_iff_left, lt_div_iff₀ (by positivity)]
      norm_num at gap ⊢
      linarith
    have place_lt := lt_rank_of_half_gap fits beyond
    rw [add_mul, div_mul_cancel₀ _ (by positivity), place] at place_lt
    exact place_lt

namespace Queue

variable {ε : Type} {q : Queue ε}

/-! ## Runs stay below the standstill -/

/-- No time in a sound queue is beyond the standstill. -/
structure Bounded (q : Queue ε) : Prop where
  sound : Sound q
  horizon : q.horizon ≤ standstill
  due : ∀ entry ∈ q.pending, entry.due ≤ standstill

theorem bounded_empty : Bounded ({} : Queue ε) := by
  exact ⟨sound_empty, zero_le_moment moment_standstill, by simp⟩

theorem schedule_bounded (bounded : Bounded q) (delay : Float32) (event : ε) :
    Bounded (q.schedule delay event) := by
  have sound := bounded.sound
  have behind := moment_le_trans sound.now sound.horizon moment_standstill sound.behind
    bounded.horizon
  refine ⟨schedule_sound sound delay event, bounded.horizon, ?_⟩
  intro entry member
  rcases List.mem_append.mp member with old | new
  · exact bounded.due entry old
  · rw [List.mem_singleton.mp new]
    exact add_delay_le sound.now behind delay

theorem advance_bounded (bounded : Bounded q) (dt : Float32) : Bounded (q.advance dt) := by
  refine ⟨advance_sound bounded.sound dt, ?_, ?_⟩
  · rw [advance_horizon]
    split
    next step =>
      rw [step_is_effective step]
      exact add_delay_le bounded.sound.horizon bounded.horizon dt
    next => exact bounded.horizon
  · rw [advance_pending]
    exact bounded.due

/-- Popping adds nothing to what is pending. -/
theorem popDue_kept (sound : Sound q) {entry : Entry ε} (member : entry ∈ q.popDue.2.pending) :
    entry ∈ q.pending := by
  cases pops : q.popDue with
  | mk event? popped =>
    rw [pops] at member
    cases event? with
    | none =>
      obtain ⟨rfl, -⟩ := popDue_settled pops
      exact member
    | some event =>
      obtain ⟨first, -, -, perm, -⟩ := popDue_first sound pops
      exact perm.mem_iff.mpr (List.mem_cons_of_mem first member)

theorem popDue_bounded (bounded : Bounded q) : Bounded q.popDue.2 := by
  refine ⟨popDue_sound bounded.sound rfl, ?_, ?_⟩
  · rw [(popDue_forward bounded.sound).2]
    exact bounded.horizon
  · intro entry member
    exact bounded.due entry (popDue_kept bounded.sound member)

theorem serve_bounded (bounded : Bounded q) (operation : Operation ε) :
    Bounded (q.serve operation).2 := by
  cases operation with
  | schedule delay event => exact schedule_bounded bounded delay event
  | advance dt => exact advance_bounded bounded dt
  | pop => exact popDue_bounded bounded

/-- However long a queue runs, its times stay at or below the standstill. -/
theorem serveAll_bounded (bounded : Bounded q) (operations : List (Operation ε)) :
    Bounded (serveAll serve q operations).2 := by
  induction operations generalizing q with
  | nil => exact bounded
  | cons first rest ih => exact ih (serve_bounded bounded first)

/-! ## Waiting times -/

theorem sooner_mem (first : Float) (rest : List Float) :
    rest.foldl sooner first ∈ first :: rest := by
  induction rest generalizing first with
  | nil => exact List.mem_singleton_self first
  | cons next rest ih =>
    have chosen : sooner first next = first ∨ sooner first next = next := by
      unfold sooner
      split
      · exact .inr rfl
      · exact .inl rfl
    have inside := List.mem_cons.mp (ih (sooner first next))
    rw [List.foldl_cons, List.mem_cons, List.mem_cons]
    rcases inside with here | later
    · rw [here]
      exact chosen.imp_right .inl
    · exact .inr (.inr later)

/-- What is announced is the wait for some entry. -/
theorem untilNext?_spec {left : Float} (announced : q.untilNext? = some left) :
    ∃ entry ∈ q.pending, left = larger (entry.due - q.now) 0 := by
  unfold untilNext? at announced
  split at announced
  next => simp at announced
  next first rest waits =>
    have member := sooner_mem first rest
    rw [Option.some.inj announced, ← waits] at member
    obtain ⟨entry, pending, same⟩ := List.mem_map.mp member
    exact ⟨entry, pending, same.symm⟩

/-- A time that a queue holds or announces. -/
inductive Times (q : Queue ε) : Float → Prop
  | now : Times q q.now
  | horizon : Times q q.horizon
  | due {entry : Entry ε} (pending : entry ∈ q.pending) : Times q entry.due
  | wait {left : Float} (announced : q.untilNext? = some left) : Times q left

theorem finite_of_le {time : Float} (moment : IsMoment time) (le : time ≤ standstill) :
    time.isFinite = true := by
  rw [le_iff_word moment moment_standstill] at le
  rw [finite_iff_word moment]
  exact le.trans_lt ((finite_iff_word moment_standstill).mp standstill_finite)

/-- The wait for a pending entry is a clock reading, no later than the entry is due. It
is never less than zero. -/
theorem wait_moment (bounded : Bounded q) {entry : Entry ε} (pending : entry ∈ q.pending) :
    IsMoment (entry.due - q.now) ∧ entry.due - q.now ≤ entry.due ∧
      larger (entry.due - q.now) 0 = entry.due - q.now := by
  have sound := bounded.sound
  have due := sound.due entry pending
  obtain ⟨moment, shorter⟩ := moment_sub due sound.now
    (finite_of_le due (bounded.due entry pending)) (sound.ahead entry pending)
  exact ⟨moment, shorter, larger_eq_left moment moment_zero (zero_le_moment moment)⟩

theorem times_bounded (bounded : Bounded q) {time : Float} (times : q.Times time) :
    IsMoment time ∧ time ≤ standstill := by
  have sound := bounded.sound
  cases times with
  | now =>
    exact ⟨sound.now, moment_le_trans sound.now sound.horizon moment_standstill sound.behind
      bounded.horizon⟩
  | horizon => exact ⟨sound.horizon, bounded.horizon⟩
  | due pending => exact ⟨sound.due _ pending, bounded.due _ pending⟩
  | wait announced =>
    obtain ⟨entry, pending, rfl⟩ := untilNext?_spec announced
    obtain ⟨moment, shorter, same⟩ := wait_moment bounded pending
    rw [same]
    exact ⟨moment, moment_le_trans moment (sound.due entry pending) moment_standstill shorter
      (bounded.due entry pending)⟩

/-! ## Everything can fire -/

/-- Steps bring the horizon to the standstill and leave what is pending. -/
theorem reaches_standstill (sound : Sound q) : ∃ steps : List (Operation ε),
    (serveAll serve q steps).1 = [] ∧ (serveAll serve q steps).2.pending = q.pending ∧
      standstill ≤ (serveAll serve q steps).2.horizon := by
  induction gap : word standstill - word q.horizon using Nat.strong_induction_on
    generalizing q with
  | h gap ih =>
    by_cases reached : standstill ≤ q.horizon
    · exact ⟨[], rfl, rfl, reached⟩
    · have below := (not_le_iff_lt moment_standstill sound.horizon).mp reached
      have moved : q.horizon < (q.advance longest).horizon := by
        rw [advance_horizon, if_pos longest_is_step]
        exact lt_add_longest sound.horizon below
      have next := advance_sound sound longest
      rw [lt_iff_word sound.horizon next.horizon] at moved
      rw [lt_iff_word sound.horizon moment_standstill] at below
      obtain ⟨steps, quiet, kept, reaches⟩ := ih _ (by omega) next rfl
      exact ⟨.advance longest :: steps, quiet, kept.trans (advance_pending q longest), reaches⟩

/-- If all that is pending is due, as many pops take it out. -/
theorem pops_all (due : ∀ entry ∈ q.pending, entry.due ≤ q.horizon) :
    let pops := List.replicate q.pending.length .pop
    (serveAll serve q pops).2.pending = [] ∧
      (serveAll serve q pops).1.reduceOption.Perm (q.pending.map (·.event)) := by
  induction length : q.pending.length generalizing q with
  | zero =>
    rw [List.length_eq_zero_iff] at length
    simp [serveAll, length]
  | succ size ih =>
    cases pops : q.popDue with
    | mk event? popped =>
      cases event? with
      | none =>
        have quiet := popDue_eq_none_iff.mp (congrArg Prod.fst pops)
        obtain ⟨entry, rest, shape⟩ := List.exists_cons_of_length_eq_add_one length
        have member : entry ∈ q.pending := by simp [shape]
        exact absurd (due entry member) (quiet entry member)
      | some event =>
        obtain ⟨first, rfl, -, perm, shape⟩ := popDue_eq_some pops
        have same : popped.horizon = q.horizon := by rw [shape]
        have fewer : popped.pending.length = size := by
          have whole := perm.length_eq
          rw [length, List.length_cons] at whole
          omega
        have still : ∀ entry ∈ popped.pending, entry.due ≤ popped.horizon := by
          intro entry member
          rw [same]
          exact due entry (perm.mem_iff.mpr (List.mem_cons_of_mem first member))
        obtain ⟨empty, answers⟩ := ih still fewer
        have events := (perm.map Entry.event).symm
        rw [List.replicate_succ]
        simp only [serveAll, serve, pops]
        exact ⟨empty, (answers.cons first.event).trans events⟩

/-- There is a way to go on in which all that is pending fires. -/
theorem everything_fires (bounded : Bounded q) : ∃ later : List (Operation ε),
    (serveAll serve q later).2.pending = [] ∧
      (serveAll serve q later).1.reduceOption.Perm (q.pending.map (·.event)) := by
  obtain ⟨steps, quiet, kept, reaches⟩ := reaches_standstill bounded.sound
  have last := serveAll_sound bounded.sound steps
  have due : ∀ entry ∈ (serveAll serve q steps).2.pending,
      entry.due ≤ (serveAll serve q steps).2.horizon := by
    intro entry member
    rw [kept] at member
    exact moment_le_trans (bounded.sound.due entry member) moment_standstill last.horizon
      (bounded.due entry member) reaches
  obtain ⟨empty, answers⟩ := pops_all due
  rw [kept] at empty answers
  refine ⟨steps ++ List.replicate q.pending.length .pop, ?_⟩
  rw [serveAll_append, quiet, List.nil_append]
  exact ⟨empty, answers⟩

end Queue

/-- However long a queue runs, every time in it and every wait that it announces is a
finite number, not below zero and no later than the standstill. So all that is pending
has its place in time, and there is a way to go on in which all of it fires. -/
theorem times_stay_finite (operations : List (Operation ε)) :
    let q := (serveAll Queue.serve {} operations).2
    (∀ time, q.Times time →
      time.isFinite = true ∧ time.isNaN = false ∧ 0 ≤ time ∧ time ≤ standstill) ∧
    (∀ entry ∈ q.pending, ∀ other ∈ q.pending, entry.due ≤ other.due ∨ other.due ≤ entry.due) ∧
    ∃ later, (serveAll Queue.serve q later).2.pending = [] ∧
      (serveAll Queue.serve q later).1.reduceOption.Perm (q.pending.map (·.event)) := by
  intro q
  have bounded : q.Bounded := Queue.serveAll_bounded Queue.bounded_empty operations
  refine ⟨?_, ?_, Queue.everything_fires bounded⟩
  · intro time times
    obtain ⟨moment, le⟩ := Queue.times_bounded bounded times
    have number := decoded_is_number moment.decoded
    exact ⟨Queue.finite_of_le moment le, number, zero_le_moment moment, le⟩
  · intro entry member other member'
    rw [le_iff_word (bounded.sound.due entry member) (bounded.sound.due other member'),
      le_iff_word (bounded.sound.due other member') (bounded.sound.due entry member)]
    exact le_total _ _

end Sentry.Timer
