import Sentry.Proofs.Number.Moment
import Sentry.Timer.Lemmas

/-! The clock of a timer queue. It never goes back and never passes an event that
is still pending, so while an event is handled it stands exactly at the due time of
that event, and once nothing is due it stands at the horizon. -/
namespace Sentry.Timer

variable {ε : Type}

/-! ## Operations in turn -/

/-- What the owner of a queue does with it. -/
inductive Operation (ε : Type) where
  | schedule (delay : Float32) (event : ε)
  | advance (dt : Float32)
  | pop

/-- The event that an operation schedules. -/
def Operation.scheduled? : Operation ε → Option ε
  | .schedule _ event => some event
  | _ => none

/-- What serves as a queue is given operations in turn. Its answers, one for
each pop, and what it is afterwards. -/
def serveAll {σ : Type} (serve : σ → Operation ε → List (Option ε) × σ) (s : σ) :
    List (Operation ε) → List (Option ε) × σ
  | [] => ([], s)
  | first :: rest =>
    let done := serve s first
    let later := serveAll serve done.2 rest
    (done.1 ++ later.1, later.2)

theorem serveAll_append {σ : Type} (serve : σ → Operation ε → List (Option ε) × σ) (s : σ)
    (first second : List (Operation ε)) :
    serveAll serve s (first ++ second) =
      ((serveAll serve s first).1 ++ (serveAll serve (serveAll serve s first).2 second).1,
        (serveAll serve (serveAll serve s first).2 second).2) := by
  induction first generalizing s with
  | nil => rfl
  | cons operation rest ih =>
    rw [List.cons_append, serveAll, ih]
    simp only [serveAll, List.append_assoc]

namespace Queue

variable {q popped : Queue ε} {event : ε}

/-- The answer to an operation, and the queue afterwards. -/
def serve (q : Queue ε) : Operation ε → List (Option ε) × Queue ε
  | .schedule delay event => ([], q.schedule delay event)
  | .advance dt => ([], q.advance dt)
  | .pop => ([q.popDue.1], q.popDue.2)

/-- Every time in the queue is a moment, and the clock is behind the horizon
and behind all pending events. -/
structure Sound (q : Queue ε) : Prop where
  now : IsMoment q.now
  horizon : IsMoment q.horizon
  behind : q.now ≤ q.horizon
  due : ∀ entry ∈ q.pending, IsMoment entry.due
  ahead : ∀ entry ∈ q.pending, q.now ≤ entry.due

/-- Nothing that is pending is due, and the clock has caught up. -/
structure Settled (q : Queue ε) : Prop where
  caught : q.now = q.horizon
  quiet : ∀ entry ∈ q.pending, ¬ entry.due ≤ q.horizon

theorem sound_empty : Sound ({} : Queue ε) := by
  exact ⟨moment_zero, moment_zero, moment_le_refl moment_zero, by simp, by simp⟩

private theorem le_of_not_due {horizon due : Float} (clock : IsMoment horizon)
    (moment : IsMoment due) (waits : ¬ due ≤ horizon) : horizon ≤ due := by
  have above := (not_le_iff_lt moment clock).mp waits
  rw [lt_iff_word clock moment] at above
  exact (le_iff_word clock moment).mpr above.le

/-! ## One operation -/

theorem schedule_sound (sound : Sound q) (delay : Float32) (event : ε) :
    Sound (q.schedule delay event) := by
  have effective := effectiveDelay_is_delay delay
  refine ⟨sound.now, sound.horizon, sound.behind, ?_, ?_⟩
  · intro entry member
    rcases List.mem_append.mp member with old | new
    · exact sound.due entry old
    · rw [List.mem_singleton.mp new]
      exact moment_add sound.now effective
  · intro entry member
    rcases List.mem_append.mp member with old | new
    · exact sound.ahead entry old
    · rw [List.mem_singleton.mp new]
      exact le_add sound.now effective

theorem advance_pending (q : Queue ε) (dt : Float32) : (q.advance dt).pending = q.pending := by
  unfold advance
  dsimp only
  split <;> split <;> rfl

theorem advance_horizon (q : Queue ε) (dt : Float32) : (q.advance dt).horizon =
    if isStep dt then q.horizon + widen dt else q.horizon := by
  unfold advance
  dsimp only
  split <;> split <;> rfl

theorem horizon_le_advance (sound : Sound q) (dt : Float32) :
    IsMoment (q.advance dt).horizon ∧ q.horizon ≤ (q.advance dt).horizon := by
  rw [advance_horizon]
  split
  next step =>
    exact ⟨moment_add sound.horizon (step_is_delay step),
      le_add sound.horizon (step_is_delay step)⟩
  next => exact ⟨sound.horizon, moment_le_refl sound.horizon⟩

/-- After an advance the clock is where it was, or at the new horizon if
nothing is due by then. -/
theorem advance_now (q : Queue ε) (dt : Float32) : (q.advance dt).now = q.now ∨
    (q.advance dt).now = (q.advance dt).horizon ∧
      ∀ entry ∈ q.pending, ¬ entry.due ≤ (q.advance dt).horizon := by
  unfold advance anyDue
  dsimp only
  split <;> split
  all_goals
    first
    | exact .inl rfl
    | next quiet => exact .inr ⟨rfl, by simpa using quiet⟩

/-- If nothing is due after an advance, the clock is at the new horizon. -/
theorem advance_caught (dt : Float32)
    (quiet : ∀ entry ∈ (q.advance dt).pending, ¬ entry.due ≤ (q.advance dt).horizon) :
    (q.advance dt).now = (q.advance dt).horizon := by
  have nothing : (q.advance dt).anyDue = false := by simpa [anyDue] using quiet
  unfold advance at nothing ⊢
  dsimp only at nothing ⊢
  generalize (if isStep dt then { q with horizon := q.horizon + widen dt } else q) = moved
    at nothing ⊢
  split at nothing
  next due =>
    rw [due] at nothing
    cases nothing
  next due => rw [if_neg due]

theorem now_le_advance (sound : Sound q) (dt : Float32) : q.now ≤ (q.advance dt).now := by
  obtain ⟨moment, later⟩ := horizon_le_advance sound dt
  rcases advance_now q dt with still | ⟨caught, -⟩
  · rw [still]
    exact moment_le_refl sound.now
  · rw [caught]
    exact moment_le_trans sound.now sound.horizon moment sound.behind later

theorem advance_sound (sound : Sound q) (dt : Float32) : Sound (q.advance dt) := by
  obtain ⟨moment, later⟩ := horizon_le_advance sound dt
  have due : ∀ entry ∈ (q.advance dt).pending, IsMoment entry.due := by
    rw [advance_pending]
    exact sound.due
  rcases advance_now q dt with still | ⟨caught, quiet⟩
  · refine ⟨still ▸ sound.now, moment, ?_, due, ?_⟩
    · rw [still]
      exact moment_le_trans sound.now sound.horizon moment sound.behind later
    · rw [still, advance_pending]
      exact sound.ahead
  · refine ⟨caught ▸ moment, moment, ?_, due, ?_⟩
    · rw [caught]
      exact moment_le_refl moment
    · rw [caught, advance_pending]
      intro entry member
      exact le_of_not_due moment (sound.due entry member) (quiet entry member)

/-! ## What is popped -/

theorem before_iff {a b : Entry ε} : a.before b = true ↔ orderKey a.due < orderKey b.due ∨
    orderKey a.due = orderKey b.due ∧ a.id.toNat < b.id.toNat := by
  simp [Entry.before, UInt64.lt_iff_toNat_lt]

/-- No entry that is due fires before the one that is chosen. -/
theorem firstDue?_first {horizon : Float} {entries : List (Entry ε)} {index place : Nat}
    {first other : Entry ε} (found : firstDue? horizon index entries = some (place, first))
    (member : other ∈ entries) (due : other.due ≤ horizon) : ¬ other.before first := by
  induction entries generalizing index place first with
  | nil => simp at member
  | cons entry rest ih =>
    rw [firstDue?] at found
    split at found
    next nothing =>
      split at found
      next =>
        obtain ⟨-, rfl⟩ : index = place ∧ entry = first := by simpa using found
        rcases List.mem_cons.mp member with rfl | inside
        · rw [before_iff]
          omega
        · exact absurd due ((firstDue?_eq_none_iff _).mp nothing other inside)
      next => simp at found
    next earlier best best_found =>
      have least := fun inside => ih best_found inside
      split at found
      next takes =>
        obtain ⟨-, rfl⟩ : index = place ∧ entry = first := by simpa using found
        have behind : ¬ best.before entry := by
          rw [Bool.and_eq_true, Bool.not_eq_true'] at takes
          simp [takes.2]
        rcases List.mem_cons.mp member with rfl | inside
        · rw [before_iff]
          omega
        · have := least inside
          rw [before_iff] at this behind ⊢
          omega
      next leaves =>
        obtain ⟨-, rfl⟩ : earlier = place ∧ best = first := by simpa using found
        rcases List.mem_cons.mp member with rfl | inside
        · have ahead : best.before other := by simpa [due] using leaves
          rw [before_iff] at ahead ⊢
          omega
        · exact least inside

/-- Popping takes the entry that is chosen, and moves the clock just to its due
time: the larger of the two is never the clock as it was. -/
theorem popDue_takes (sound : Sound q) (pops : q.popDue = (some event, popped)) :
    ∃ place first, firstDue? q.horizon 0 q.pending = some (place, first) ∧
      q.pending[place]? = some first ∧ first.event = event ∧
      larger first.due q.now = first.due ∧
      popped = { q with now := first.due, pending := swapRemove q.pending place } := by
  unfold popDue at pops
  split at pops
  next place first found =>
    obtain ⟨-, get, -⟩ := firstDue?_spec found
    rw [Nat.sub_zero] at get
    have member := List.mem_of_getElem? get
    have stays := larger_eq_left (sound.due first member) sound.now (sound.ahead first member)
    rw [stays] at pops
    obtain ⟨rfl, rfl⟩ := by simpa using pops
    exact ⟨place, first, found, get, rfl, stays, rfl⟩
  next => simp at pops

/-- A popped event was pending and due. The clock then stands at its due time,
no event that is still pending is due before it, and none that is due fires
before it. -/
theorem popDue_first (sound : Sound q) (pops : q.popDue = (some event, popped)) :
    ∃ first : Entry ε, first.event = event ∧ first.due ≤ q.horizon ∧
      q.pending.Perm (first :: popped.pending) ∧
      popped = { q with now := first.due, pending := popped.pending } ∧
      (∀ other ∈ popped.pending, first.due ≤ other.due) ∧
      ∀ other ∈ popped.pending, other.due ≤ q.horizon → ¬ other.before first := by
  obtain ⟨place, first, found, get, same, -, shape⟩ := popDue_takes sound pops
  obtain ⟨inside, rfl⟩ := List.getElem?_eq_some_iff.mp get
  obtain ⟨-, -, due⟩ := firstDue?_spec found
  have perm := swapRemove_perm q.pending _ inside
  have member := perm.mem_iff.mpr List.mem_cons_self
  have moment := sound.due _ member
  have pending : ∀ other ∈ swapRemove q.pending place, other ∈ q.pending := by
    intro other still
    exact perm.mem_iff.mpr (List.mem_cons_of_mem _ still)
  rw [shape]
  refine ⟨_, same, due, perm, rfl, ?_, ?_⟩
  · intro other still
    have other_moment := sound.due other (pending other still)
    by_cases other_due : other.due ≤ q.horizon
    · have first_fires := firstDue?_first found (pending other still) other_due
      rw [before_iff, orderKey_eq_word moment, orderKey_eq_word other_moment] at first_fires
      rw [le_iff_word moment other_moment]
      omega
    · have above := le_of_not_due sound.horizon other_moment other_due
      exact moment_le_trans moment sound.horizon other_moment due above
  · intro other still other_due
    exact firstDue?_first found (pending other still) other_due

theorem popDue_settled (pops : q.popDue = (none, popped)) :
    popped = { q with now := q.horizon } ∧ Settled popped := by
  have quiet := popDue_eq_none_iff.mp (congrArg Prod.fst pops)
  unfold popDue at pops
  split at pops
  · simp at pops
  · obtain rfl : { q with now := q.horizon } = popped := by simpa using pops
    exact ⟨rfl, rfl, quiet⟩

theorem popDue_sound (sound : Sound q) {event? : Option ε} (pops : q.popDue = (event?, popped)) :
    Sound popped := by
  cases event? with
  | none =>
    obtain ⟨rfl, -⟩ := popDue_settled pops
    have quiet := popDue_eq_none_iff.mp (congrArg Prod.fst pops)
    refine ⟨sound.horizon, sound.horizon, moment_le_refl sound.horizon, sound.due, ?_⟩
    intro entry member
    exact le_of_not_due sound.horizon (sound.due entry member) (quiet entry member)
  | some event =>
    obtain ⟨first, -, due, perm, shape, least, -⟩ := popDue_first sound pops
    have moment := sound.due first (perm.mem_iff.mpr List.mem_cons_self)
    rw [shape]
    refine ⟨moment, sound.horizon, due, ?_, least⟩
    intro entry member
    exact sound.due entry (perm.mem_iff.mpr (List.mem_cons_of_mem first member))

theorem serve_sound (sound : Sound q) (operation : Operation ε) :
    Sound (q.serve operation).2 := by
  cases operation with
  | schedule delay event => exact schedule_sound sound delay event
  | advance dt => exact advance_sound sound dt
  | pop => exact popDue_sound sound rfl

/-- Operations in any order leave a queue sound. -/
theorem serveAll_sound (sound : Sound q) (operations : List (Operation ε)) :
    Sound (serveAll serve q operations).2 := by
  induction operations generalizing q with
  | nil => exact sound
  | cons first rest ih => exact ih (serve_sound sound first)

theorem popDue_clock (sound : Sound q) (pops : q.popDue = (some event, popped)) :
    popped.horizon = q.horizon ∧ q.now ≤ popped.now ∧ popped.now ≤ q.horizon := by
  obtain ⟨first, -, due, perm, shape, -⟩ := popDue_first sound pops
  rw [shape]
  exact ⟨rfl, sound.ahead first (perm.mem_iff.mpr List.mem_cons_self), due⟩

/-! ## Time goes forward -/

theorem popDue_forward (sound : Sound q) :
    q.now ≤ q.popDue.2.now ∧ q.popDue.2.horizon = q.horizon := by
  cases pops : q.popDue with
  | mk event? popped =>
    cases event? with
    | none =>
      obtain ⟨rfl, -⟩ := popDue_settled pops
      exact ⟨sound.behind, rfl⟩
    | some event =>
      obtain ⟨same, later, -⟩ := popDue_clock sound pops
      exact ⟨later, same⟩

/-- No operation moves the clock or the horizon back. -/
theorem serve_forward (sound : Sound q) (operation : Operation ε) :
    q.now ≤ (q.serve operation).2.now ∧ q.horizon ≤ (q.serve operation).2.horizon := by
  cases operation with
  | schedule delay event => exact ⟨moment_le_refl sound.now, moment_le_refl sound.horizon⟩
  | advance dt => exact ⟨now_le_advance sound dt, (horizon_le_advance sound dt).2⟩
  | pop =>
    obtain ⟨later, same⟩ := popDue_forward sound
    refine ⟨later, ?_⟩
    change q.horizon ≤ q.popDue.2.horizon
    rw [same]
    exact moment_le_refl sound.horizon

theorem serveAll_forward (sound : Sound q) (operations : List (Operation ε)) :
    q.now ≤ (serveAll serve q operations).2.now ∧
      q.horizon ≤ (serveAll serve q operations).2.horizon := by
  induction operations generalizing q with
  | nil => exact ⟨moment_le_refl sound.now, moment_le_refl sound.horizon⟩
  | cons first rest ih =>
    have next := serve_sound sound first
    have last := serveAll_sound next rest
    obtain ⟨now_first, horizon_first⟩ := serve_forward sound first
    obtain ⟨now_rest, horizon_rest⟩ := ih next
    exact ⟨moment_le_trans sound.now next.now last.now now_first now_rest,
      moment_le_trans sound.horizon next.horizon last.horizon horizon_first horizon_rest⟩

/-! ## Due times of one event -/

section
variable [DecidableEq ε] {other : ε}

/-- The due times of what is pending for an event. -/
def dues (q : Queue ε) (event : ε) : List Float :=
  (q.pending.filter (·.event = event)).map (·.due)

theorem length_dues (q : Queue ε) (event : ε) :
    (q.dues event).length = (q.pending.map (·.event)).count event := by
  rw [dues, List.length_map, List.count_eq_countP, List.countP_map, List.countP_eq_length_filter]
  congr 1

theorem dues_schedule (q : Queue ε) (delay : Float32) (event other : ε) :
    (q.schedule delay event).dues other =
      q.dues other ++ if event = other then [q.now + effectiveDelay delay] else [] := by
  unfold dues schedule
  rw [List.filter_append, List.map_append]
  by_cases same : event = other <;> simp [same]

/-- Popping an event takes its due time, where the clock then stands, from the
due times of the event and leaves those of all others. -/
theorem dues_popDue (sound : Sound q) (pops : q.popDue = (some event, popped)) (other : ε) :
    (q.dues other).Perm (if event = other then popped.now :: popped.dues other
      else popped.dues other) := by
  obtain ⟨first, rfl, -, perm, shape, -⟩ := popDue_first sound pops
  have clock : popped.now = first.due := by rw [shape]
  have kept := (perm.filter (·.event = other)).map (·.due)
  rw [clock]
  by_cases same : first.event = other
  · simpa [dues, same] using kept
  · simpa [dues, same] using kept

theorem dues_ne_nil_of_popDue (sound : Sound q) (pops : q.popDue = (some event, popped)) :
    q.dues event ≠ [] := by
  intro none_pending
  have perm := dues_popDue sound pops event
  rw [none_pending, if_pos rfl] at perm
  simpa using perm.length_eq

/-- If an event is pending once, popping it leaves the clock at its due time. -/
theorem popDue_only (sound : Sound q) (pops : q.popDue = (some event, popped)) {due : Float}
    (only : q.dues event = [due]) : popped.now = due ∧ popped.dues event = [] := by
  have perm := dues_popDue sound pops event
  rw [only, if_pos rfl] at perm
  have both := List.singleton_perm.mp perm
  rw [List.cons.injEq] at both
  exact ⟨both.1.symm, both.2.symm⟩

theorem dues_popDue_other (sound : Sound q) (pops : q.popDue = (some event, popped))
    (differs : event ≠ other) (few : (q.dues other).length ≤ 1) :
    popped.dues other = q.dues other := by
  have perm := dues_popDue sound pops other
  rw [if_neg differs] at perm
  match shape : q.dues other with
  | [] => exact List.nil_perm.mp (shape ▸ perm)
  | [due] => exact (List.singleton_perm.mp (shape ▸ perm)).symm
  | _ :: _ :: _ => simp [shape] at few

theorem exists_of_mem_dues {due : Float} (member : due ∈ q.dues event) :
    ∃ entry ∈ q.pending, entry.due = due := by
  obtain ⟨entry, kept, same⟩ := List.mem_map.mp member
  exact ⟨entry, List.mem_of_mem_filter kept, same⟩

/-- In a sound queue with nothing due, what is pending lies beyond the horizon. -/
theorem horizon_lt_dues (sound : Sound q) (settled : Settled q) {due : Float}
    (member : due ∈ q.dues event) : IsMoment due ∧ q.horizon < due := by
  obtain ⟨entry, pending, rfl⟩ := exists_of_mem_dues member
  have moment := sound.due entry pending
  exact ⟨moment, (not_le_iff_lt moment sound.horizon).mp (settled.quiet entry pending)⟩

end

end Queue

/-- The clock keeps its place. After any operations on a new queue it is behind the
horizon and behind all that is pending, and no operations that follow move it or the
horizon back. A pop that answers leaves it exactly at the due time of the entry that
was taken out; a pop that does not, and an advance after which nothing is due, leave
it at the horizon. -/
theorem clock_keeps_its_place (operations : List (Operation ε)) :
    let q := (serveAll Queue.serve {} operations).2
    q.now ≤ q.horizon ∧ (∀ entry ∈ q.pending, q.now ≤ entry.due) ∧
      (∀ later, q.now ≤ (serveAll Queue.serve q later).2.now ∧
        q.horizon ≤ (serveAll Queue.serve q later).2.horizon) ∧
      (∀ event popped, q.popDue = (some event, popped) → ∃ place first,
        q.pending[place]? = some first ∧ first.event = event ∧ first.due ≤ q.horizon ∧
          larger first.due q.now = first.due ∧
          popped = { q with now := first.due, pending := swapRemove q.pending place }) ∧
      (∀ popped, q.popDue = (none, popped) → popped = { q with now := q.horizon }) ∧
      ∀ dt, (∀ entry ∈ (q.advance dt).pending, ¬ entry.due ≤ (q.advance dt).horizon) →
        (q.advance dt).now = (q.advance dt).horizon := by
  intro q
  have sound : q.Sound := Queue.serveAll_sound Queue.sound_empty operations
  refine ⟨sound.behind, sound.ahead, Queue.serveAll_forward sound, ?_,
    fun popped pops => (Queue.popDue_settled pops).1, fun dt => Queue.advance_caught dt⟩
  intro event popped pops
  obtain ⟨place, first, found, get, same, stays, shape⟩ := Queue.popDue_takes sound pops
  obtain ⟨-, -, due⟩ := firstDue?_spec found
  exact ⟨place, first, get, same, due, stays, shape⟩

end Sentry.Timer
