import Sentry.Proofs.Enemy.Armed

/-! Waiting for an alarm. An enemy that waits for an alarm at a given time, and
does nothing that begins the wait anew, handles the alarm once: in the first
tick whose clock has reached the time, however the frames before it were cut. -/
namespace Sentry.Enemy
open Timer

variable {α τ ω : Type}

/-! ## Clocks of a run -/

/-- The clocks at which an alarm is handled. -/
def firings (alarm : Alarm) (past : List (Beat α ω)) : List Float :=
  past.filterMap fun beat => if beat.cause = .alarm alarm then some beat.clock else none

theorem firings_append (alarm : Alarm) (first second : List (Beat α ω)) :
    firings alarm (first ++ second) = firings alarm first ++ firings alarm second :=
  List.filterMap_append

theorem firings_other {alarm : Alarm} {beat : Beat α ω} (other : beat.cause ≠ .alarm alarm) :
    firings alarm [beat] = [] := by
  simp [firings, other]

/-- The clocks of the ticks among several calls. -/
def tickClocks (before : Float) : List (Call ω) → List Float
  | [] => []
  | .tick frame world :: rest =>
    let clock := (Call.tick frame world).horizon before
    clock :: tickClocks clock rest
  | .stun _ _ :: rest => tickClocks before rest

theorem clockAfter_append (first second : List (Call ω)) (before : Float) :
    clockAfter (first ++ second) before = clockAfter second (clockAfter first before) :=
  List.foldl_append

theorem tickClocks_append (first second : List (Call ω)) (before : Float) :
    tickClocks before (first ++ second) =
      tickClocks before first ++ tickClocks (clockAfter first before) second := by
  induction first generalizing before with
  | nil => rfl
  | cons call rest ih =>
    cases call with
    | tick frame world => exact congrArg (_ :: ·) (ih _)
    | stun frame world => exact ih before

theorem trail_causes (host : Host α τ ω) (frame : Frame) (b : Brain α) (world : ω) :
    ∀ beat ∈ b.trail host frame world, ∃ alarm, beat.cause = .alarm alarm := by
  fun_induction Brain.trail host frame b world with
  | case1 => simp
  | case2 b world alarm popped pops ih =>
    rw [List.forall_mem_cons]
    exact ⟨⟨alarm, rfl⟩, ih⟩

/-! ## Waits -/

/-- A wait for an alarm. Its handling ends the wait, and nothing else does but a
beat that starts it anew. What `holds` of the state meanwhile tells from the
clock whether the enemy still waits. -/
structure Wait (host : Host α τ ω) (agent : α) (config : Config) (alarm : Alarm) (due : Float)
    (waits : State → Bool) (holds : State → Prop) (starts : Beat α ω → Prop) : Prop where
  moment : IsMoment due
  moves : ∀ {s : State} {alarms : Queue Alarm}, holds s → Queue.Sound s.alarms →
    Queue.Sound alarms → alarms.pending = s.alarms.pending → s.alarms.now ≤ alarms.now →
      holds (s.popping alarms) ∧ waits (s.popping alarms) = waits s
  rings : ∀ {s : State} {rung : Alarm} {popped : Queue Alarm}, holds s → Queue.Sound s.alarms →
    s.alarms.popDue = (some rung, popped) →
      let after := (s.popping popped).ring config rung
      holds after ∧ if rung = alarm then waits s = true ∧ popped.now = due ∧ waits after = false
        else waits after = waits s
  acts : ∀ {b : Brain α} {cause : Cause} (frame : Frame) (world : ω), holds b.state →
    Regular agent config b → (∀ rung, cause ≠ .alarm rung) → ¬ starts ⟨cause, frame, b, world⟩ →
      let after := (Beat.mk cause frame b world).after host
      holds after ∧ waits after = waits b.state
  tells : ∀ {s : State}, holds s → Queue.Sound s.alarms → Queue.Settled s.alarms →
    (waits s = true ↔ s.alarms.horizon < due)
  separate : ∀ {beat : Beat α ω}, starts beat → ∀ rung, beat.cause ≠ .alarm rung

section
variable {host : Host α τ ω} {agent : α} {config : Config} {alarm : Alarm} {due : Float}
  {waits : State → Bool} {holds : State → Prop} {starts : Beat α ω → Prop} {b : Brain α}
  {calls : List (Call ω)}

/-- A beat that handles no alarm and does not start the wait anew leaves the wait
as it was. -/
theorem wait_acts (wait : Wait host agent config alarm due waits holds starts)
    (regular : Regular agent config b) {cause : Cause} (silent : ∀ rung, cause ≠ .alarm rung)
    {past : List (Beat α ω)}
    (before : (∀ beat ∈ past, ¬ starts beat) →
      holds b.state ∧ firings alarm past = if waits b.state then [] else [due])
    (frame : Frame) (world : ω)
    (undisturbed : ∀ beat ∈ past ++ [⟨cause, frame, b, world⟩], ¬ starts beat) :
    let after := (Beat.mk cause frame b world).after host
    holds after ∧ firings alarm (past ++ [⟨cause, frame, b, world⟩]) =
      if waits after then [] else [due] := by
  intro after
  rw [List.forall_mem_append, List.forall_mem_singleton] at undisturbed
  obtain ⟨held, fired⟩ := before undisturbed.1
  obtain ⟨held', same⟩ := wait.acts frame world held regular silent undisturbed.2
  refine ⟨held', ?_⟩
  rw [firings_append, firings_other (silent alarm), List.append_nil, fired, ← same]

/-- Until the wait starts anew the alarm is handled once, when the wait ends. -/
theorem wait_kept (wait : Wait host agent config alarm due waits holds starts) :
    Kept host agent config fun past b => (∀ beat ∈ past, ¬ starts beat) →
      holds b.state ∧ firings alarm past = if waits b.state then [] else [due] := by
  constructor
  case moves =>
    intro past b alarms regular before sound same forward undisturbed
    obtain ⟨held, fired⟩ := before undisturbed
    obtain ⟨held', still⟩ := wait.moves held regular.sound sound same forward
    refine ⟨held', ?_⟩
    rw [fired, ← still]
    rfl
  case rings =>
    intro past b popped rung frame world regular before pops undisturbed
    rw [List.forall_mem_append] at undisturbed
    obtain ⟨held, fired⟩ := before undisturbed.1
    have after := alarm_after host frame world
      (regular_withAlarms regular (Queue.popDue_sound regular.sound pops)) rung
    obtain ⟨held', ends⟩ := wait.rings held regular.sound pops
    change holds (Beat.after host _) ∧ firings alarm (past ++ [_]) =
      if waits (Beat.after host _) then [] else [due]
    rw [after, firings_append, fired]
    refine ⟨held', ?_⟩
    by_cases awaited : rung = alarm
    · rw [if_pos awaited] at ends
      obtain ⟨waiting, now, done⟩ := ends
      have handled : firings alarm
          [(⟨.alarm rung, frame, b.withAlarms popped, world⟩ : Beat α ω)] = [due] := by
        rw [awaited, ← now]
        simp [firings, Beat.clock, Brain.withAlarms]
      have ended : waits ((b.withAlarms popped).state.ring config rung) = false := done
      rw [handled, waiting, ended]
      rfl
    · rw [if_neg awaited] at ends
      have silent : Cause.alarm rung ≠ .alarm alarm := fun same => awaited (Cause.alarm.inj same)
      have same : waits ((b.withAlarms popped).state.ring config rung) = waits b.state := ends
      rw [firings_other silent, List.append_nil, same]
  case decides =>
    intro past b frame world regular before settled undisturbed
    exact wait_acts wait regular (by simp) before frame world undisturbed
  case stuns =>
    intro past b frame world regular before caught undisturbed
    exact wait_acts wait regular (by simp) before frame world undisturbed

/-- The beginning of a wait. -/
structure Begun (agent : α) (config : Config) (waits : State → Bool) (holds : State → Prop)
    (b : Brain α) : Prop where
  regular : Regular agent config b
  caught : b.state.alarms.now = b.state.alarms.horizon
  holds : holds b.state
  waits : waits b.state = true

/-- What has been handled by the end of a run that nothing disturbs. -/
theorem wait_run (wait : Wait host agent config alarm due waits holds starts)
    (begun : Begun agent config waits holds b)
    (undisturbed : ∀ beat ∈ b.journal host calls, ¬ starts beat) :
    let after := b.run host calls
    (Regular agent config after ∧ after.state.alarms.now = after.state.alarms.horizon) ∧
      after.state.alarms.horizon = clockAfter calls b.state.alarms.horizon ∧
      holds after.state ∧
      firings alarm (b.journal host calls) = if waits after.state then [] else [due] := by
  have start : (∀ beat ∈ ([] : List (Beat α ω)), ¬ starts beat) →
      holds b.state ∧ firings alarm ([] : List (Beat α ω)) =
        if waits b.state then [] else [due] := by
    intro _
    rw [begun.waits]
    exact ⟨begun.holds, rfl⟩
  obtain ⟨kept, regular, caught, horizon⟩ :=
    run_keeps [] (wait_kept wait) begun.regular begun.caught start calls
  exact ⟨⟨regular, caught⟩, horizon, kept undisturbed⟩

/-- What has been handled by the evaluation of the next tick. -/
theorem wait_settled (wait : Wait host agent config alarm due waits holds starts)
    (begun : Begun agent config waits holds b)
    (undisturbed : ∀ beat ∈ b.journal host calls, ¬ starts beat) (frame : Frame) (world : ω) :
    let ready := ((b.run host calls).settled host frame world).1
    (Regular agent config ready ∧ Queue.Settled ready.state.alarms) ∧
      ready.state.alarms.horizon =
        clockAfter (calls ++ [.tick frame world]) b.state.alarms.horizon ∧
      holds ready.state ∧
      firings alarm (b.journal host calls) ++
        firings alarm (((b.run host calls).woken frame).trail host frame world) =
          if waits ready.state then [] else [due] := by
  obtain ⟨⟨regular, -⟩, horizon, holds_run, fired⟩ := wait_run wait begun undisturbed
  have start : (∀ beat ∈ b.journal host calls, ¬ starts beat) →
      holds (b.run host calls).state ∧ firings alarm (b.journal host calls) =
        if waits (b.run host calls).state then [] else [due] :=
    fun _ => ⟨holds_run, fired⟩
  obtain ⟨kept, regular_ready, settled, horizon_ready⟩ :=
    settled_keeps _ (wait_kept wait) regular start frame world
  refine ⟨⟨regular_ready, settled⟩, ?_, ?_⟩
  · rw [horizon_ready, Queue.advance_horizon, horizon, clockAfter_append]
    rfl
  · rw [← firings_append]
    apply kept
    intro beat member
    rcases List.mem_append.mp member with old | new
    · exact undisturbed beat old
    · intro starting
      obtain ⟨rung, cause⟩ := trail_causes _ _ _ _ beat new
      exact wait.separate starting rung cause

/-- When a tree is evaluated the clock tells whether the enemy still waits. -/
theorem waits_iff_clock (wait : Wait host agent config alarm due waits holds starts)
    (begun : Begun agent config waits holds b)
    (undisturbed : ∀ beat ∈ b.journal host calls, ¬ starts beat) (frame : Frame) (world : ω) :
    waits ((b.run host calls).settled host frame world).1.state = true ↔
      clockAfter (calls ++ [.tick frame world]) b.state.alarms.horizon < due := by
  obtain ⟨⟨regular, settled⟩, horizon, holds_ready, -⟩ :=
    wait_settled wait begun undisturbed frame world
  rw [wait.tells holds_ready regular.sound settled, horizon]

theorem firings_tick (alarm : Alarm) (frame : Frame) (world : ω) :
    firings alarm (b.beats host (.tick frame world)) =
      firings alarm ((b.woken frame).trail host frame world) := by
  rw [Brain.beats, firings_append, firings_other (by simp [Brain.evaluation]), List.append_nil]

private theorem waits_of_nil {fired : List Float} {still : Bool}
    (shape : fired = if still then [] else [due]) : still = true ↔ fired = [] := by
  rw [shape]
  cases still <;> simp

/-- After a run the enemy still waits if no tick has reached the due time. -/
theorem waits_iff_clocks (wait : Wait host agent config alarm due waits holds starts)
    (begun : Begun agent config waits holds b) (calls : List (Call ω))
    (undisturbed : ∀ beat ∈ b.journal host calls, ¬ starts beat) :
    waits (b.run host calls).state = true ↔
      ∀ clock ∈ tickClocks b.state.alarms.horizon calls, clock < due := by
  induction calls using List.reverseRecOn with
  | nil => simp [Brain.run, tickClocks, begun.waits]
  | append_singleton earlier call ih =>
    have all_undisturbed := undisturbed
    rw [journal_append, List.forall_mem_append] at undisturbed
    have before := ih undisturbed.1
    have fired_before := (wait_run wait begun undisturbed.1).2.2.2
    have fired_after := (wait_run wait begun all_undisturbed).2.2.2
    rw [journal_append, firings_append] at fired_after
    rw [tickClocks_append, List.forall_mem_append, ← before, waits_of_nil fired_after,
      waits_of_nil fired_before]
    cases call with
    | stun frame world =>
      have silent : firings alarm ((b.run host earlier).journal host [.stun frame world]) = [] :=
        firings_other (by simp)
      rw [silent]
      simp [tickClocks]
    | tick frame world =>
      have now := waits_iff_clock wait begun undisturbed.1 frame world
      have fired_ready := (wait_settled wait begun undisturbed.1 frame world).2.2.2
      rw [waits_of_nil fired_ready, clockAfter_append] at now
      rw [Brain.journal, Brain.journal, List.append_nil, firings_tick]
      constructor
      · intro none_fired
        refine ⟨(List.append_eq_nil_iff.mp none_fired).1, ?_⟩
        rw [tickClocks, tickClocks, List.forall_mem_singleton]
        exact now.mp none_fired
      · rintro ⟨-, reached⟩
        exact now.mpr (reached _ List.mem_cons_self)

/-- The alarm is handled in the first tick that reaches the due time, and then
once, at the due time itself; no other tick handles it. -/
theorem firings_in_tick (wait : Wait host agent config alarm due waits holds starts)
    (begun : Begun agent config waits holds b)
    (undisturbed : ∀ beat ∈ b.journal host calls, ¬ starts beat) (frame : Frame) (world : ω) :
    firings alarm ((b.run host calls).beats host (.tick frame world)) =
      if due ≤ clockAfter (calls ++ [.tick frame world]) b.state.alarms.horizon ∧
          ∀ clock ∈ tickClocks b.state.alarms.horizon calls, clock < due
        then [due] else [] := by
  have earlier := waits_iff_clocks wait begun calls undisturbed
  have now := waits_iff_clock wait begun undisturbed frame world
  obtain ⟨⟨regular, -⟩, horizon, -, fired_ready⟩ := wait_settled wait begun undisturbed frame world
  have fired_before := (wait_run wait begun undisturbed).2.2.2
  have moment := regular.sound.horizon
  rw [horizon] at moment
  rw [← not_le_iff_lt wait.moment moment] at now
  rw [fired_before] at fired_ready
  rw [firings_tick]
  cases before : waits (b.run host calls).state with
  | false =>
    -- It was handled before, so this tick cannot handle it again.
    have past : ¬ ∀ clock ∈ tickClocks b.state.alarms.horizon calls, clock < due := by
      rw [← earlier, before]
      exact Bool.false_ne_true
    rw [if_neg (fun both => past both.2)]
    rw [before] at fired_ready
    cases ready : waits ((b.run host calls).settled host frame world).1.state with
    | false =>
      rw [ready] at fired_ready
      simpa using fired_ready
    | true =>
      rw [ready] at fired_ready
      simp at fired_ready
  | true =>
    rw [before] at fired_ready
    by_cases reached : due ≤ clockAfter (calls ++ [.tick frame world]) b.state.alarms.horizon
    · rw [if_pos ⟨reached, earlier.mp before⟩]
      have ends : waits ((b.run host calls).settled host frame world).1.state = false := by
        by_contra still
        exact now.mp (by simpa using still) reached
      rw [ends] at fired_ready
      simpa using fired_ready
    · rw [if_neg (fun both => reached both.1)]
      rw [now.mpr reached] at fired_ready
      simpa using fired_ready

end

end Sentry.Enemy
