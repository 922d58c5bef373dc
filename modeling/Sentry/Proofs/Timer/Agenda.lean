import Sentry.Proofs.Timer.Clock

/-! Timer queues as priority queues. An agenda keeps its jobs in the order in
which they fire: by due time, and by the order of scheduling among those due at
the same time. As long as a queue does not run out of numbers it answers like an
agenda, in whatever order its entries are stored. -/
namespace Sentry.Timer

variable {ε : Type}

/-! ## Jobs -/

/-- An event that has been scheduled. -/
structure Job (ε : Type) where
  /-- How many were scheduled before it. -/
  number : ℕ
  due : Float
  event : ε

/-- Job `a` fires before job `b`. -/
def Job.before (a b : Job ε) : Prop :=
  a.due < b.due ∨ a.due = b.due ∧ a.number < b.number

/-- The job that an entry stands for. -/
def Entry.job (entry : Entry ε) : Job ε :=
  ⟨entry.id.toNat, entry.due, entry.event⟩

/-- A job takes its place behind all that are not due after it. -/
def Job.insert (job : Job ε) : List (Job ε) → List (Job ε)
  | [] => [job]
  | first :: rest =>
    if first.due ≤ job.due then first :: job.insert rest else job :: first :: rest

section
variable {a b job : Job ε} {jobs : List (Job ε)}

theorem job_before_iff (left : IsMoment a.due) (right : IsMoment b.due) :
    a.before b ↔ word a.due < word b.due ∨ word a.due = word b.due ∧ a.number < b.number := by
  have same : a.due = b.due ↔ word a.due = word b.due := ⟨congrArg word, eq_of_word_eq⟩
  rw [Job.before, lt_iff_word left right, same]

theorem due_le_of_before (left : IsMoment a.due) (right : IsMoment b.due) (first : a.before b) :
    a.due ≤ b.due := by
  rw [job_before_iff left right] at first
  rw [le_iff_word left right]
  omega

/-- Entries fire in the order of their jobs. -/
theorem entry_before_iff {a b : Entry ε} (left : IsMoment a.due) (right : IsMoment b.due) :
    a.before b = true ↔ a.job.before b.job := by
  rw [job_before_iff left right, Queue.before_iff, orderKey_eq_word left, orderKey_eq_word right,
    Nat.cast_lt, Nat.cast_inj]
  rfl

theorem insert_perm (job : Job ε) (jobs : List (Job ε)) :
    (job.insert jobs).Perm (job :: jobs) := by
  induction jobs with
  | nil => exact List.Perm.refl _
  | cons first rest ih =>
    unfold Job.insert
    split
    · exact (ih.cons first).trans (List.Perm.swap job first rest)
    · exact List.Perm.refl _

/-- A job with the greatest number keeps jobs in order. -/
theorem insert_ordered (ordered : jobs.Pairwise Job.before) (moment : IsMoment job.due)
    (moments : ∀ other ∈ jobs, IsMoment other.due)
    (latest : ∀ other ∈ jobs, other.number < job.number) :
    (job.insert jobs).Pairwise Job.before := by
  induction jobs with
  | nil => exact List.pairwise_singleton _ job
  | cons first rest ih =>
    obtain ⟨first_before, rest_ordered⟩ := List.pairwise_cons.mp ordered
    obtain ⟨first_moment, rest_moments⟩ := List.forall_mem_cons.mp moments
    obtain ⟨first_number, rest_numbers⟩ := List.forall_mem_cons.mp latest
    unfold Job.insert
    split
    next reaches =>
      rw [le_iff_word first_moment moment] at reaches
      apply List.pairwise_cons.mpr
      refine ⟨?_, ih rest_ordered rest_moments rest_numbers⟩
      intro other member
      rcases List.mem_cons.mp ((insert_perm job rest).mem_iff.mp member) with rfl | inside
      · rw [job_before_iff first_moment moment]
        omega
      · exact first_before other inside
    next beyond =>
      rw [le_iff_word first_moment moment] at beyond
      apply List.pairwise_cons.mpr
      refine ⟨?_, ordered⟩
      intro other member
      rw [job_before_iff moment (moments other member)]
      rcases List.mem_cons.mp member with rfl | inside
      · omega
      · have behind := first_before other inside
        rw [job_before_iff first_moment (rest_moments other inside)] at behind
        omega

end

/-! ## Agendas -/

/-- An ideal queue, which remembers all jobs it has ever had. -/
structure Agenda (ε : Type) where
  now : Float := 0
  horizon : Float := 0
  /-- All jobs in the order of scheduling. -/
  scheduled : List (Job ε) := []
  /-- The jobs that wait, the first to fire in front. -/
  waiting : List (Job ε) := []
  /-- The jobs that have fired, in order. -/
  fired : List (Job ε) := []

namespace Agenda

/-- The job of an event that is scheduled now. -/
def job (a : Agenda ε) (delay : Float32) (event : ε) : Job ε :=
  ⟨a.scheduled.length, a.now + Queue.effectiveDelay delay, event⟩

/-- One more job. -/
def schedule (a : Agenda ε) (delay : Float32) (event : ε) : Agenda ε :=
  { a with
    scheduled := a.scheduled ++ [a.job delay event]
    waiting := (a.job delay event).insert a.waiting }

/-- The horizon moves; the clock follows if no job is due by then. -/
def advance (a : Agenda ε) (dt : Float32) : Agenda ε :=
  let moved := if Queue.isStep dt then { a with horizon := a.horizon + widen dt } else a
  if moved.waiting.any (·.due ≤ moved.horizon) then moved else { moved with now := moved.horizon }

/-- The first job fires if it is due; else the clock goes to the horizon. -/
def pop (a : Agenda ε) : Option ε × Agenda ε :=
  match a.waiting with
  | [] => (none, { a with now := a.horizon })
  | first :: rest =>
    if first.due ≤ a.horizon then
      (some first.event, { a with now := first.due, waiting := rest, fired := a.fired ++ [first] })
    else (none, { a with now := a.horizon })

/-- The answer to an operation, and the agenda afterwards. -/
def serve (a : Agenda ε) : Operation ε → List (Option ε) × Agenda ε
  | .schedule delay event => ([], a.schedule delay event)
  | .advance dt => ([], a.advance dt)
  | .pop => ([a.pop.1], a.pop.2)

/-- Every job has either fired or waits in its place, and jobs are numbered in
the order of scheduling. -/
structure InOrder (a : Agenda ε) : Prop where
  ordered : a.waiting.Pairwise Job.before
  whole : (a.fired ++ a.waiting).Perm a.scheduled
  numbered : a.scheduled.map (·.number) = List.range a.scheduled.length

end Agenda

/-- The clocks of a queue and an agenda agree, and the entries of the queue
stand for the jobs that wait. -/
structure Queue.Tracks (q : Queue ε) (a : Agenda ε) : Prop where
  now : q.now = a.now
  horizon : q.horizon = a.horizon
  count : q.nextId.toNat = a.scheduled.length
  pending : (q.pending.map Entry.job).Perm a.waiting

namespace Queue

variable {q : Queue ε} {a : Agenda ε}

theorem tracks_empty : Tracks ({} : Queue ε) {} :=
  ⟨rfl, rfl, rfl, List.Perm.refl _⟩

theorem inOrder_empty : Agenda.InOrder ({} : Agenda ε) :=
  ⟨List.Pairwise.nil, List.Perm.refl _, rfl⟩

/-- A waiting job stands for an entry that is pending. -/
theorem exists_entry (tracks : Tracks q a) {job : Job ε} (waits : job ∈ a.waiting) :
    ∃ entry ∈ q.pending, entry.job = job :=
  List.mem_map.mp (tracks.pending.mem_iff.mpr waits)

theorem job_waits (tracks : Tracks q a) {entry : Entry ε} (pending : entry ∈ q.pending) :
    entry.job ∈ a.waiting :=
  tracks.pending.mem_iff.mp (List.mem_map_of_mem pending)

theorem waiting_moments (sound : Sound q) (tracks : Tracks q a) :
    ∀ job ∈ a.waiting, IsMoment job.due := by
  intro job waits
  obtain ⟨entry, pending, rfl⟩ := exists_entry tracks waits
  exact sound.due entry pending

theorem length_pending (tracks : Tracks q a) : q.pending.length = a.waiting.length := by
  rw [← tracks.pending.length_eq, List.length_map]

/-- If no pending entry is due, neither is a job. -/
theorem waiting_quiet (tracks : Tracks q a)
    (quiet : ∀ entry ∈ q.pending, ¬ entry.due ≤ q.horizon) :
    ∀ job ∈ a.waiting, ¬ job.due ≤ q.horizon := by
  intro job waits
  obtain ⟨entry, pending, rfl⟩ := exists_entry tracks waits
  exact quiet entry pending

theorem waiting_numbers (order : a.InOrder) :
    ∀ job ∈ a.waiting, job.number < a.scheduled.length := by
  intro job waits
  have member : job.number ∈ a.scheduled.map (·.number) :=
    List.mem_map_of_mem (order.whole.mem_iff.mp (List.mem_append_right _ waits))
  rwa [order.numbered, List.mem_range] at member

/-! ## One operation -/

theorem schedule_tracks (sound : Sound q) (tracks : Tracks q a) (order : a.InOrder)
    (few : a.scheduled.length + 1 < 2 ^ 64) (delay : Float32) (event : ε) :
    Tracks (q.schedule delay event) (a.schedule delay event) ∧
      (a.schedule delay event).InOrder := by
  have job_eq :
      (Entry.mk q.nextId (q.now + effectiveDelay delay) event).job = a.job delay event := by
    rw [Entry.job, Agenda.job, tracks.count, tracks.now]
  have moment : IsMoment (a.job delay event).due := by
    rw [← job_eq]
    exact moment_add sound.now (effectiveDelay_is_delay delay)
  have placed := insert_perm (a.job delay event) a.waiting
  refine ⟨⟨tracks.now, tracks.horizon, ?_, ?_⟩, ⟨?_, ?_, ?_⟩⟩
  · have next : (q.nextId + 1).toNat = q.nextId.toNat + 1 := by
      rw [UInt64.toNat_add, tracks.count]
      exact Nat.mod_eq_of_lt few
    simpa [schedule, Agenda.schedule, tracks.count] using next
  · rw [schedule, List.map_append, List.map_singleton, job_eq]
    exact ((List.perm_append_singleton _ _).trans (tracks.pending.cons _)).trans placed.symm
  · exact insert_ordered order.ordered moment (waiting_moments sound tracks) (waiting_numbers order)
  · have last : (a.fired ++ a.job delay event :: a.waiting).Perm
        (a.scheduled ++ [a.job delay event]) :=
      (List.perm_middle.trans (order.whole.cons _)).trans (List.perm_append_singleton _ _).symm
    exact (placed.append_left a.fired).trans last
  · simp [Agenda.schedule, Agenda.job, order.numbered, List.range_succ]

theorem anyDue_tracks (tracks : Tracks q a) :
    q.anyDue = a.waiting.any (·.due ≤ a.horizon) := by
  rw [anyDue, tracks.horizon, ← tracks.pending.any_eq, List.any_map]
  rfl

theorem advance_tracks (tracks : Tracks q a) (order : a.InOrder) (dt : Float32) :
    Tracks (q.advance dt) (a.advance dt) ∧ (a.advance dt).InOrder := by
  -- The clock of either catches up with the horizon if nothing is due by then.
  have catches : ∀ {q : Queue ε} {a : Agenda ε}, Tracks q a → a.InOrder →
      Tracks (if q.anyDue then q else { q with now := q.horizon })
          (if a.waiting.any (·.due ≤ a.horizon) then a else { a with now := a.horizon }) ∧
        (if a.waiting.any (·.due ≤ a.horizon) then a
          else { a with now := a.horizon }).InOrder := by
    intro q a tracks order
    rw [anyDue_tracks tracks]
    split
    · exact ⟨tracks, order⟩
    · exact ⟨⟨tracks.horizon, tracks.horizon, tracks.count, tracks.pending⟩,
        order.ordered, order.whole, order.numbered⟩
  apply catches
  · split
    · exact ⟨tracks.now, congrArg (· + widen dt) tracks.horizon, tracks.count, tracks.pending⟩
    · exact tracks
  · split
    · exact ⟨order.ordered, order.whole, order.numbered⟩
    · exact order

/-- Any other entry is due no earlier than that of the first job, and fires after
it. -/
theorem front_fires_first (sound : Sound q) (tracks : Tracks q a) (order : a.InOrder)
    {first : Job ε} {rest : List (Job ε)} (front : a.waiting = first :: rest) {entry : Entry ε}
    (pending : entry ∈ q.pending) (differs : entry.job ≠ first) :
    ∃ other ∈ q.pending, other ≠ entry ∧ other.due ≤ entry.due ∧ other.before entry = true := by
  have ordered := order.ordered
  have waits := job_waits tracks pending
  rw [front] at ordered waits
  have inside : first ∈ a.waiting := by
    rw [front]
    exact List.mem_cons_self
  obtain ⟨other, other_pending, rfl⟩ := exists_entry tracks inside
  have other_moment := sound.due other other_pending
  have moment := sound.due entry pending
  have ahead := (List.pairwise_cons.mp ordered).1 _
    ((List.mem_cons.mp waits).resolve_left differs)
  have early : other.job.due ≤ entry.job.due := due_le_of_before other_moment moment ahead
  refine ⟨other, other_pending, ?_, early, (entry_before_iff other_moment moment).mpr ahead⟩
  rintro rfl
  exact differs rfl

/-- The entry that is popped stands for the first job. -/
theorem popDue_job (sound : Sound q) (tracks : Tracks q a) (order : a.InOrder) {event : ε}
    {popped : Queue ε} (pops : q.popDue = (some event, popped)) :
    ∃ first rest, a.waiting = first :: rest ∧ first.event = event ∧ first.due ≤ q.horizon ∧
      popped = { q with now := first.due, pending := popped.pending } ∧
      (popped.pending.map Entry.job).Perm rest := by
  obtain ⟨entry, rfl, due, perm, shape, -, least⟩ := popDue_first sound pops
  have pending := perm.mem_iff.mpr List.mem_cons_self
  have waits := job_waits tracks pending
  cases front : a.waiting with
  | nil =>
    rw [front] at waits
    cases waits
  | cons first rest =>
    -- Were another job in front, its entry would be due and fire before this one.
    have same : entry.job = first := by
      by_contra differs
      obtain ⟨other, other_pending, other_differs, early, ahead⟩ :=
        front_fires_first sound tracks order front pending differs
      have still := (List.mem_cons.mp (perm.mem_iff.mp other_pending)).resolve_left other_differs
      have other_due := moment_le_trans (sound.due other other_pending) (sound.due entry pending)
        sound.horizon early due
      exact least other still other_due ahead
    subst same
    have others := (perm.map Entry.job).symm.trans tracks.pending
    rw [front, List.map_cons, List.perm_cons] at others
    exact ⟨_, rest, rfl, rfl, due, shape, others⟩

/-- A pop answers like an agenda, and keeps track of it. -/
theorem popDue_tracks (sound : Sound q) (tracks : Tracks q a) (order : a.InOrder) :
    q.popDue.1 = a.pop.1 ∧ Tracks q.popDue.2 a.pop.2 ∧ a.pop.2.InOrder := by
  cases pops : q.popDue with
  | mk found popped =>
    cases found with
    | none =>
      have quiet := popDue_eq_none_iff.mp (congrArg Prod.fst pops)
      have idle : a.pop = (none, { a with now := a.horizon }) := by
        unfold Agenda.pop
        cases front : a.waiting with
        | nil => rfl
        | cons first rest =>
          have late := waiting_quiet tracks quiet first (front ▸ List.mem_cons_self)
          exact if_neg (tracks.horizon ▸ late)
      rw [idle]
      obtain ⟨rfl, -⟩ := popDue_settled pops
      exact ⟨rfl, ⟨tracks.horizon, tracks.horizon, tracks.count, tracks.pending⟩,
        order.ordered, order.whole, order.numbered⟩
    | some event =>
      obtain ⟨first, rest, front, rfl, due, shape, others⟩ := popDue_job sound tracks order pops
      have fires : a.pop = (some first.event,
          { a with now := first.due, waiting := rest, fired := a.fired ++ [first] }) := by
        unfold Agenda.pop
        rw [front]
        exact if_pos (tracks.horizon ▸ due)
      have ordered := order.ordered
      have whole := order.whole
      rw [front] at ordered whole
      rw [fires, shape]
      refine ⟨rfl, ⟨rfl, tracks.horizon, tracks.count, others⟩,
        (List.pairwise_cons.mp ordered).2, ?_, order.numbered⟩
      rw [List.append_assoc]
      exact whole

theorem scheduled_advance (a : Agenda ε) (dt : Float32) :
    (a.advance dt).scheduled = a.scheduled := by
  unfold Agenda.advance
  dsimp only
  split <;> split <;> rfl

theorem scheduled_pop (a : Agenda ε) : a.pop.2.scheduled = a.scheduled := by
  unfold Agenda.pop
  split
  · rfl
  · split <;> rfl

/-- A queue that tracks an agenda answers an operation like it, and goes on to
track it. -/
theorem serve_tracks (sound : Sound q) (tracks : Tracks q a) (order : a.InOrder)
    (operation : Operation ε)
    (few : a.scheduled.length + operation.scheduled?.toList.length < 2 ^ 64) :
    (q.serve operation).1 = (a.serve operation).1 ∧
      Tracks (q.serve operation).2 (a.serve operation).2 ∧ (a.serve operation).2.InOrder := by
  cases operation with
  | schedule delay event => exact ⟨rfl, schedule_tracks sound tracks order few delay event⟩
  | advance dt => exact ⟨rfl, advance_tracks tracks order dt⟩
  | pop =>
    obtain ⟨same, later⟩ := popDue_tracks sound tracks order
    exact ⟨congrArg ([·]) same, later⟩

theorem scheduled_serve (a : Agenda ε) (operation : Operation ε) :
    (a.serve operation).2.scheduled.map (·.event) =
      a.scheduled.map (·.event) ++ operation.scheduled?.toList := by
  cases operation with
  | schedule delay event => simp [Agenda.serve, Agenda.schedule, Agenda.job, Operation.scheduled?]
  | advance dt => simp [Agenda.serve, scheduled_advance, Operation.scheduled?]
  | pop => simp [Agenda.serve, scheduled_pop, Operation.scheduled?]

theorem fired_serve (a : Agenda ε) (operation : Operation ε) :
    (a.serve operation).2.fired.map (·.event) =
      a.fired.map (·.event) ++ (a.serve operation).1.reduceOption := by
  cases operation with
  | schedule delay event => simp [Agenda.serve, Agenda.schedule]
  | advance dt =>
    unfold Agenda.serve Agenda.advance
    dsimp only
    split <;> split <;> simp
  | pop =>
    unfold Agenda.serve Agenda.pop
    dsimp only
    split
    · simp
    · split <;> simp

/-! ## Operations in turn -/

private theorem filterMap_scheduled (first : Operation ε) (rest : List (Operation ε)) :
    (first :: rest).filterMap Operation.scheduled? =
      first.scheduled?.toList ++ rest.filterMap Operation.scheduled? := by
  rw [List.filterMap_cons]
  cases first.scheduled? <;> rfl

theorem serveAll_tracks (sound : Sound q) (tracks : Tracks q a) (order : a.InOrder)
    (operations : List (Operation ε))
    (few : a.scheduled.length + (operations.filterMap Operation.scheduled?).length < 2 ^ 64) :
    let done := serveAll serve q operations
    let ideal := serveAll Agenda.serve a operations
    done.1 = ideal.1 ∧ Tracks done.2 ideal.2 ∧ ideal.2.InOrder := by
  induction operations generalizing q a with
  | nil => exact ⟨rfl, tracks, order⟩
  | cons first rest ih =>
    rw [filterMap_scheduled, List.length_append] at few
    obtain ⟨same, tracks', order'⟩ := serve_tracks sound tracks order first (by omega)
    have size : (a.serve first).2.scheduled.length =
        a.scheduled.length + first.scheduled?.toList.length := by
      simpa using congrArg List.length (scheduled_serve a first)
    obtain ⟨answers, later⟩ := ih (serve_sound sound first) tracks' order' (by omega)
    refine ⟨?_, later⟩
    rw [serveAll, serveAll, same, answers]

/-- The order in which entries are stored does not show in any answer. -/
theorem answers_however_stored (sound : Sound q) (tracks : Tracks q a) (order : a.InOrder)
    {stored : List (Entry ε)} (same : stored.Perm q.pending) (operations : List (Operation ε))
    (few : a.scheduled.length + (operations.filterMap Operation.scheduled?).length < 2 ^ 64) :
    (serveAll serve { q with pending := stored } operations).1 =
      (serveAll serve q operations).1 := by
  have stored_sound : Sound { q with pending := stored } :=
    ⟨sound.now, sound.horizon, sound.behind,
      fun entry member => sound.due entry (same.mem_iff.mp member),
      fun entry member => sound.ahead entry (same.mem_iff.mp member)⟩
  have stored_tracks : Tracks { q with pending := stored } a :=
    ⟨tracks.now, tracks.horizon, tracks.count, (same.map Entry.job).trans tracks.pending⟩
  rw [(serveAll_tracks stored_sound stored_tracks order operations few).1,
    (serveAll_tracks sound tracks order operations few).1]

/-- The jobs of an agenda are the events that were scheduled. -/
theorem scheduled_serveAll (a : Agenda ε) (operations : List (Operation ε)) :
    (serveAll Agenda.serve a operations).2.scheduled.map (·.event) =
      a.scheduled.map (·.event) ++ operations.filterMap Operation.scheduled? := by
  induction operations generalizing a with
  | nil => simp [serveAll]
  | cons first rest ih =>
    rw [serveAll, ih, scheduled_serve, filterMap_scheduled, List.append_assoc]

/-- The jobs that have fired are the events that were answered. -/
theorem fired_serveAll (a : Agenda ε) (operations : List (Operation ε)) :
    (serveAll Agenda.serve a operations).2.fired.map (·.event) =
      a.fired.map (·.event) ++ (serveAll Agenda.serve a operations).1.reduceOption := by
  induction operations generalizing a with
  | nil => simp [serveAll]
  | cons first rest ih =>
    rw [serveAll, ih, fired_serve, List.reduceOption_append, List.append_assoc]

/-- A drain without followers fires what is due, in order. -/
theorem drain_tracks (sound : Sound q) (tracks : Tracks q a) (order : a.InOrder) {limit : ℕ}
    (enough : a.waiting.length ≤ limit) :
    (q.drain (fun _ => []) limit).1 =
      (a.waiting.filter (·.due ≤ q.horizon)).map fun job => (job.event, job.due) := by
  induction limit generalizing q a with
  | zero =>
    rw [List.eq_nil_of_length_eq_zero (Nat.le_zero.mp enough)]
    rfl
  | succ limit ih =>
    obtain ⟨-, tracks', order'⟩ := popDue_tracks sound tracks order
    cases pops : q.popDue with
    | mk found popped =>
      rw [drain, pops]
      cases found with
      | none =>
        have quiet := popDue_eq_none_iff.mp (congrArg Prod.fst pops)
        have idle : a.waiting.filter (·.due ≤ q.horizon) = [] := by
          apply List.filter_eq_nil_iff.mpr
          simpa using waiting_quiet tracks quiet
        rw [idle]
        rfl
      | some event =>
        obtain ⟨first, rest, front, rfl, due, shape, -⟩ := popDue_job sound tracks order pops
        have popped_sound := popDue_sound sound pops
        have left : a.pop.2.waiting = rest := by
          unfold Agenda.pop
          rw [front]
          simp [← tracks.horizon, due]
        rw [pops] at tracks'
        rw [front, List.length_cons] at enough
        have later := ih popped_sound tracks' order' (by rw [left]; omega)
        have clock : popped.now = first.due := by rw [shape]
        have horizon : popped.horizon = q.horizon := by rw [shape]
        rw [left, horizon] at later
        simp [scheduleAll, later, front, due, clock]

/-- After an advance a drain fires what is due by the new horizon. -/
theorem advance_drain_tracks (sound : Sound q) (tracks : Tracks q a) (order : a.InOrder)
    (dt : Float32) {limit : ℕ} (enough : q.pending.length ≤ limit) :
    ((q.advance dt).drain (fun _ => []) limit).1 =
      (a.waiting.filter (·.due ≤ (q.advance dt).horizon)).map fun job => (job.event, job.due) := by
  obtain ⟨tracks', order'⟩ := advance_tracks tracks order dt
  have same : (a.advance dt).waiting = a.waiting := by
    unfold Agenda.advance
    dsimp only
    split <;> split <;> rfl
  rw [← same]
  apply drain_tracks (advance_sound sound dt) tracks' order'
  rw [same, ← length_pending tracks]
  exact enough

end Queue

/-- A queue is a priority queue. Given any operations that schedule no more
events than there are numbers, it answers like an agenda, whose waiting jobs are
in the order of their due times and of scheduling. Nothing is popped exactly if
nothing pending is due; what is popped is the least of all that is pending, and
the others stay. Every event that was scheduled has either been answered, once,
or is pending. The order in which entries are stored does not show in any later
answer. A drain fires exactly what is due by the horizon, in order. -/
theorem queue_answers_like_agenda (operations : List (Operation ε))
    (few : (operations.filterMap Operation.scheduled?).length < 2 ^ 64) :
    let done := serveAll Queue.serve {} operations
    let ideal := serveAll Agenda.serve {} operations
    let q := done.2
    let a := ideal.2
    done.1 = ideal.1 ∧ q.Tracks a ∧ a.waiting.Pairwise Job.before ∧
      (q.popDue.1 = none ↔ ∀ entry ∈ q.pending, ¬ entry.due ≤ q.horizon) ∧
      (∀ event, q.popDue.1 = some event → ∃ first rest, a.waiting = first :: rest ∧
        first.event = event ∧ first.due ≤ q.horizon ∧ (∀ other ∈ rest, first.before other) ∧
          (q.popDue.2.pending.map Entry.job).Perm rest) ∧
      a.scheduled.map (·.number) = List.range a.scheduled.length ∧
      a.scheduled.map (·.event) = operations.filterMap Operation.scheduled? ∧
      a.fired.map (·.event) = done.1.reduceOption ∧
      (a.fired ++ a.waiting).Perm a.scheduled ∧
      q.pending.length + done.1.reduceOption.length =
        (operations.filterMap Operation.scheduled?).length ∧
      (∀ stored later, stored.Perm q.pending →
        ((operations ++ later).filterMap Operation.scheduled?).length < 2 ^ 64 →
          (serveAll Queue.serve { q with pending := stored } later).1 =
            (serveAll Queue.serve q later).1) ∧
      ∀ dt limit, q.pending.length ≤ limit →
        ((q.advance dt).drain (fun _ => []) limit).1 =
          (a.waiting.filter (·.due ≤ (q.advance dt).horizon)).map
            fun job => (job.event, job.due) := by
  intro done ideal q a
  have scheduled := Queue.scheduled_serveAll ({} : Agenda ε) operations
  have sound : Queue.Sound q := Queue.serveAll_sound Queue.sound_empty operations
  obtain ⟨answers, tracks, order⟩ := Queue.serveAll_tracks Queue.sound_empty Queue.tracks_empty
    Queue.inOrder_empty operations (by simpa using few)
  have fired : a.fired.map (·.event) = done.1.reduceOption := by
    rw [answers]
    exact Queue.fired_serveAll {} operations
  have size : a.scheduled.length = (operations.filterMap Operation.scheduled?).length := by
    simpa using congrArg List.length scheduled
  refine ⟨answers, tracks, order.ordered, Queue.popDue_eq_none_iff, ?_, order.numbered,
    scheduled, fired, order.whole, ?_, ?_, ?_⟩
  · intro event found
    obtain ⟨first, rest, front, same, due, -, others⟩ :=
      Queue.popDue_job sound tracks order (Prod.ext found rfl)
    have ordered := order.ordered
    rw [front] at ordered
    exact ⟨first, rest, front, same, due, (List.pairwise_cons.mp ordered).1, others⟩
  · rw [← fired, List.length_map, ← size, ← order.whole.length_eq, List.length_append,
      Queue.length_pending tracks]
    exact Nat.add_comm _ _
  · intro stored later same enough
    rw [List.filterMap_append, List.length_append, ← size] at enough
    exact Queue.answers_however_stored sound tracks order same later enough
  · intro dt limit enough
    exact Queue.advance_drain_tracks sound tracks order dt enough

/-- Of three events the last one scheduled is due first, and the other two are
due at the same time. -/
theorem equals_fire_as_scheduled :
    let q := (serveAll Queue.serve {} [.schedule 1 'a', .schedule 1 'b', .schedule 0.5 'c']).2
    ((q.advance 2).drain (fun _ => []) 3).1 = [('c', 0.5), ('a', 1), ('b', 1)] := by
  intro q
  obtain ⟨-, -, -, -, -, -, -, -, -, -, -, drained⟩ := queue_answers_like_agenda
    [.schedule 1 'a', .schedule 1 'b', .schedule 0.5 'c'] (by decide)
  have fired := drained 2 3 (by decide +kernel)
  refine fired.trans ?_
  decide +kernel

end Sentry.Timer
