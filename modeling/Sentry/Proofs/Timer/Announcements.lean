import Sentry.Proofs.Timer.Bounds

/-! What a queue announces. The waiting time it tells is that of an entry which is due
first, in whatever order the entries are stored and although waits are rounded. So the
next pop moves the clock by just that time, and once the clock stands at the horizon,
something is popped exactly if there is no time to wait. -/
namespace Sentry.Timer

variable {ε : Type}

namespace Queue

variable {q popped : Queue ε} {event : ε}

/-! ## The least of the waits -/

/-- No waiting time comes before the one that is chosen. -/
theorem sooner_least (first : Float) (rest : List Float) {wait : Float}
    (member : wait ∈ first :: rest) : orderKey (rest.foldl sooner first) ≤ orderKey wait := by
  induction rest generalizing first wait with
  | nil => rw [List.mem_singleton.mp member, List.foldl_nil]
  | cons next rest ih =>
    have chosen : orderKey (sooner first next) ≤ orderKey first ∧
        orderKey (sooner first next) ≤ orderKey next := by
      unfold sooner
      split <;> omega
    have least := ih (sooner first next) List.mem_cons_self
    rw [List.foldl_cons]
    rcases List.mem_cons.mp member with rfl | behind
    · exact least.trans chosen.1
    · rcases List.mem_cons.mp behind with rfl | later
      · exact least.trans chosen.2
      · exact ih _ (List.mem_cons_of_mem _ later)

theorem untilNext?_eq_none_iff : q.untilNext? = none ↔ q.pending = [] := by
  unfold untilNext?
  split
  next waits => simpa using waits
  next first rest waits =>
    have some_wait : q.pending ≠ [] := by
      intro nothing
      simp [nothing] at waits
    simpa using some_wait

/-- No pending entry has a wait that comes before the one that is announced. -/
theorem untilNext?_least {left : Float} (announced : q.untilNext? = some left) {entry : Entry ε}
    (pending : entry ∈ q.pending) :
    orderKey left ≤ orderKey (larger (entry.due - q.now) 0) := by
  have member := List.mem_map_of_mem (f := fun entry => larger (entry.due - q.now) 0) pending
  unfold untilNext? at announced
  split at announced
  next => simp at announced
  next first rest waits =>
    rw [waits] at member
    rw [← Option.some.inj announced]
    exact sooner_least first rest member

/-- The wait that is announced is the one for an entry that is due first. An entry that
is due later may have the same wait, but none has a shorter one. -/
theorem untilNext?_of_first (bounded : Bounded q) {first : Entry ε} (pending : first ∈ q.pending)
    (least : ∀ other ∈ q.pending, first.due ≤ other.due) :
    q.untilNext? = some (first.due - q.now) := by
  cases announced : q.untilNext? with
  | none =>
    rw [untilNext?_eq_none_iff.mp announced] at pending
    cases pending
  | some left =>
    obtain ⟨other, pending', rfl⟩ := untilNext?_spec announced
    have sound := bounded.sound
    have due := sound.due first pending
    have due' := sound.due other pending'
    obtain ⟨moment, -, same⟩ := wait_moment bounded pending
    obtain ⟨moment', -, same'⟩ := wait_moment bounded pending'
    -- Rounding may give both the same wait, so the waits are compared and not the entries.
    have no_later := untilNext?_least announced pending
    rw [same, same', orderKey_eq_word moment, orderKey_eq_word moment', Nat.cast_le] at no_later
    have no_sooner := word_sub_mono sound.now due due'
      (finite_of_le due' (bounded.due other pending')) (sound.ahead first pending)
      (least other pending')
    rw [same', eq_of_word_eq (no_later.antisymm no_sooner)]

/-! ## What comes of it -/

/-- A pop that answers moves the clock by the wait that was announced. -/
theorem popDue_announced (bounded : Bounded q) (pops : q.popDue = (some event, popped)) :
    q.untilNext? = some (popped.now - q.now) := by
  obtain ⟨first, -, -, perm, shape, least, -⟩ := popDue_first bounded.sound pops
  have pending := perm.mem_iff.mpr List.mem_cons_self
  have moment := bounded.sound.due first pending
  have clock : popped.now = first.due := by rw [shape]
  rw [clock]
  apply untilNext?_of_first bounded pending
  intro other member
  rcases List.mem_cons.mp (perm.mem_iff.mp member) with rfl | still
  · exact moment_le_refl moment
  · exact least other still

/-- Where the clock stands at the horizon, popping does not move it. -/
theorem popDue_still (sound : Sound q) (caught : q.now = q.horizon)
    (pops : q.popDue = (some event, popped)) : popped.now = q.now := by
  obtain ⟨-, later, within⟩ := popDue_clock sound pops
  rw [← caught] at within
  exact moment_le_antisymm (popDue_sound sound pops).now sound.now within later

/-- If there is no time to wait, some entry is due at the clock. -/
theorem due_of_no_wait (bounded : Bounded q) (announced : q.untilNext? = some 0) :
    ∃ entry ∈ q.pending, entry.due = q.now := by
  obtain ⟨entry, pending, no_wait⟩ := untilNext?_spec announced
  obtain ⟨-, -, same⟩ := wait_moment bounded pending
  have due := bounded.sound.due entry pending
  have finite := finite_of_le due (bounded.due entry pending)
  refine ⟨entry, pending, ?_⟩
  rw [← sub_vanishes_iff due bounded.sound.now finite (bounded.sound.ahead entry pending), ← same]
  exact no_wait.symm

/-- Where the clock stands at the horizon, a pop answers exactly if there is no time to
wait. -/
theorem popDue_of_caught (bounded : Bounded q) (caught : q.now = q.horizon) :
    q.popDue.1.isSome ↔ q.untilNext? = some 0 := by
  have now := bounded.sound.now
  constructor
  · intro answers
    obtain ⟨event, found⟩ := Option.isSome_iff_exists.mp answers
    have pops : q.popDue = (some event, q.popDue.2) := Prod.ext found rfl
    have finite := finite_of_le now (times_bounded bounded .now).2
    rw [popDue_announced bounded pops, popDue_still bounded.sound caught pops,
      (sub_vanishes_iff now now finite (moment_le_refl now)).mpr rfl]
  · intro announced
    obtain ⟨entry, pending, due⟩ := due_of_no_wait bounded announced
    rw [← Option.ne_none_iff_isSome]
    intro nothing
    apply popDue_eq_none_iff.mp nothing entry pending
    rw [due, ← caught]
    exact moment_le_refl now

end Queue

/-- A queue does what it announces. After any operations on a new queue a wait is told
exactly if something is pending. A pop that answers moves the clock by the wait that was
told before it. And where the clock stands at the horizon, the next pop answers exactly
if that wait is zero. -/
theorem pops_are_announced (operations : List (Operation ε)) :
    let q := (serveAll Queue.serve {} operations).2
    (q.untilNext? = none ↔ q.pending = []) ∧
      (∀ event popped, q.popDue = (some event, popped) →
        q.untilNext? = some (popped.now - q.now)) ∧
      (q.now = q.horizon → (q.popDue.1.isSome ↔ q.untilNext? = some 0)) := by
  intro q
  have bounded : q.Bounded := Queue.serveAll_bounded Queue.bounded_empty operations
  exact ⟨Queue.untilNext?_eq_none_iff, fun event popped => Queue.popDue_announced bounded,
    Queue.popDue_of_caught bounded⟩

/-- A frame of one second leaves the clock behind, and the pop moves it by half a second.
Later the clock has caught up, and what is scheduled without a delay is popped at once. -/
theorem half_second_is_announced :
    let lagging := (serveAll Queue.serve {} [.schedule 2 'a', .schedule 0.5 'b', .advance 1]).2
    let caught := (serveAll Queue.serve lagging [.pop, .pop, .schedule 0 'c']).2
    lagging.popDue.1 = some 'b' ∧ lagging.untilNext? = some 0.5 ∧
      caught.now = caught.horizon ∧ caught.untilNext? = some 0 ∧ caught.popDue.1.isSome := by
  obtain ⟨-, moves, -⟩ :=
    pops_are_announced [.schedule 2 'a', .schedule 0.5 'b', .advance 1]
  obtain ⟨-, -, answers⟩ := pops_are_announced
    [.schedule 2 'a', .schedule 0.5 'b', .advance 1, .pop, .pop, .schedule 0 'c']
  refine ⟨by decide +kernel, ?_, by decide +kernel, by decide +kernel, ?_⟩
  · refine (moves 'b' _ (Prod.ext (by decide +kernel) rfl)).trans ?_
    decide +kernel
  · exact (answers (by decide +kernel)).mpr (by decide +kernel)

end Sentry.Timer
