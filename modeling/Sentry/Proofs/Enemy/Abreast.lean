import Sentry.Proofs.Enemy.Course
import Sentry.Proofs.Enemy.Pending

/-! Attacks and stuns run apart. A stun leaves an attack on its course, so an enemy
and the same enemy stunned handle the same alarms of attacks at the same times,
until the one attacks when the other cannot. -/
namespace Sentry.Enemy
open Timer

variable {α τ ω : Type}

/-! ## Two enemies -/

/-- A frame, and the world in it of each of two enemies. -/
structure Fork (ω : Type) where
  frame : Frame
  first : ω
  second : ω

namespace Fork

/-- The frame of the first enemy. -/
def one (fork : Fork ω) : Call ω :=
  .tick fork.frame fork.first

/-- The frame of the second enemy. -/
def other (fork : Fork ω) : Call ω :=
  .tick fork.frame fork.second

end Fork

/-- The attacks of two brains of one enemy have come equally far, and the first is
not stunned. -/
structure Level (agent : α) (config : Config) (course : Course) (clock : Float)
    (one other : Brain α) : Prop where
  first : Underway agent config course clock one
  second : Underway agent config course clock other
  awake : one.state.isStunned = false

section
variable {host : Host α τ ω} {agent : α} {config : Config} {course : Course} {clock : Float}
  {one other : Brain α}

theorem level_same (level : Level agent config course clock one other) :
    other.state.phase = one.state.phase ∧ other.state.canAttack = one.state.canAttack := by
  have on := level.first.on
  have on' := level.second.on
  rw [on_phase on, on_phase on', on_permission on, on_permission on']
  exact ⟨rfl, rfl⟩

theorem level_strokes (host : Host α τ ω) (level : Level agent config course clock one other)
    (fork : Fork ω) :
    strokes (other.beats host fork.other) = strokes (one.beats host fork.one) := by
  have struck := (underway_settled host level.first fork.frame fork.first).1
  have struck' := (underway_settled host level.second fork.frame fork.second).1
  exact struck'.trans struck.symm

theorem level_settled (host : Host α τ ω) (level : Level agent config course clock one other)
    (fork : Fork ω) :
    let next := fork.one.horizon clock
    Level agent config (course.pass config next).2 next
      (one.settled host fork.frame fork.first).1
      (other.settled host fork.frame fork.second).1 :=
  ⟨(underway_settled host level.first fork.frame fork.first).2,
    (underway_settled host level.second fork.frame fork.second).2,
    settle_awake (b := one.woken fork.frame) level.awake fork.frame fork.first⟩

/-- If an evaluation begins an attack for both or for neither, they stay level. -/
theorem level_evaluated (level : Level agent config course clock one other) (frame : Frame)
    (world world' : ω)
    (alike : (Beat.mk .evaluation frame one world).launches host ↔
      (Beat.mk .evaluation frame other world').launches host) :
    let beat := Beat.mk .evaluation frame one world
    let beat' := Beat.mk .evaluation frame other world'
    (beat.launches host → Level agent config
        (.windup (clock + Queue.effectiveDelay config.attackWindup)) clock
        (beat.act host).1 (beat'.act host).1) ∧
      (¬ beat.launches host →
        Level agent config course clock (beat.act host).1 (beat'.act host).1) := by
  intro beat beat'
  obtain ⟨begun, kept⟩ := underway_evaluated host level.first frame world
  obtain ⟨begun', kept'⟩ := underway_evaluated host level.second frame world'
  have awake := evaluation_awake host level.first.regular level.awake frame world
  constructor
  · intro launches
    exact ⟨begun launches, begun' (alike.mp launches), awake⟩
  · intro apart
    exact ⟨kept apart, kept' fun launches => apart (alike.mpr launches), awake⟩

/-- In a frame the world answers both enemies alike when they evaluate their trees,
and the first does not begin an attack while the second is stunned. -/
structure Together (host : Host α τ ω) (one other : Brain α) (fork : Fork ω) : Prop where
  position : host.position (other.settled host fork.frame fork.second).2 one.agent =
    host.position (one.settled host fork.frame fork.first).2 one.agent
  targetPosition : host.targetPosition (other.settled host fork.frame fork.second).2 one.agent =
    host.targetPosition (one.settled host fork.frame fork.first).2 one.agent
  apart : ¬ ((one.evaluation host fork.frame fork.first).launches host ∧
    (other.settled host fork.frame fork.second).1.state.isStunned = true)

/-- Two enemies go through several frames together. -/
def Abreast (host : Host α τ ω) (one other : Brain α) : List (Fork ω) → Prop
  | [] => True
  | fork :: rest => Together host one other fork ∧
      Abreast host (one.call host fork.one).1 (other.call host fork.other).1 rest

theorem launches_together (level : Level agent config course clock one other) {fork : Fork ω}
    (together : Together host one other fork) :
    (one.evaluation host fork.frame fork.first).launches host ↔
      (other.evaluation host fork.frame fork.second).launches host := by
  have ready := level_settled host level fork
  obtain ⟨phase, able⟩ := level_same ready
  have distance : host.targetDistance agent (other.settled host fork.frame fork.second).2 =
      host.targetDistance agent (one.settled host fork.frame fork.first).2 := by
    unfold Host.targetDistance
    rw [← level.first.regular.agent, together.position, together.targetPosition]
  have begins := launches_iff host ready.first.regular fork.frame
    (one.settled host fork.frame fork.first).2
  have begins' := launches_iff host ready.second.regular fork.frame
    (other.settled host fork.frame fork.second).2
  constructor
  · intro launches
    obtain ⟨idle, ⟨-, permitted⟩, near⟩ := begins.mp launches
    have awake : (other.settled host fork.frame fork.second).1.state.isStunned = false := by
      by_contra stunned
      exact together.apart ⟨launches, by simpa using stunned⟩
    exact begins'.mpr ⟨phase.trans idle, ⟨awake, able.trans permitted⟩, distance ▸ near⟩
  · intro launches
    obtain ⟨idle, ⟨-, permitted⟩, near⟩ := begins'.mp launches
    exact begins.mpr ⟨phase.symm.trans idle, ⟨ready.awake, able.symm.trans permitted⟩,
      distance ▸ near⟩

theorem level_together (level : Level agent config course clock one other) {fork : Fork ω}
    (together : Together host one other fork) :
    ∃ course clock, Level agent config course clock (one.call host fork.one).1
      (other.call host fork.other).1 := by
  obtain ⟨begun, kept⟩ := level_evaluated (level_settled host level fork) fork.frame _ _
    (launches_together level together)
  by_cases launches : (one.evaluation host fork.frame fork.first).launches host
  · exact ⟨_, _, begun launches⟩
  · exact ⟨_, _, kept launches⟩

theorem level_abreast (level : Level agent config course clock one other) {frames : List (Fork ω)}
    (abreast : Abreast host one other frames) :
    ∃ course clock, Level agent config course clock (one.run host (frames.map Fork.one))
      (other.run host (frames.map Fork.other)) := by
  induction frames generalizing course clock one other with
  | nil => exact ⟨course, clock, level⟩
  | cons fork rest ih =>
    obtain ⟨together, later⟩ := abreast
    obtain ⟨_, _, after⟩ := level_together level together
    exact ih after later

/-- A windup goes on until its hit test, whatever the worlds. -/
theorem level_windup {hit : Float} (level : Level agent config (.windup hit) clock one other)
    {frames : List (Fork ω)}
    (unstruck : ∀ stroke ∈ strokes (one.journal host (frames.map Fork.one)), stroke.1 ≠ .hit) :
    ∃ clock, Level agent config (.windup hit) clock (one.run host (frames.map Fork.one))
      (other.run host (frames.map Fork.other)) := by
  induction frames generalizing clock one other with
  | nil => exact ⟨clock, level⟩
  | cons fork rest ih =>
    rw [List.map_cons, Brain.journal, strokes_append, List.forall_mem_append] at unstruck
    obtain ⟨first, later⟩ := unstruck
    have struck : strokes (one.beats host fork.one) =
        (Course.pass config (fork.one.horizon clock) (.windup hit)).1 :=
      (underway_settled host level.first fork.frame fork.first).1
    have early : ¬ hit ≤ fork.one.horizon clock := by
      intro reached
      refine first (.hit, hit) ?_ rfl
      rw [struck, Course.pass, if_pos reached]
      exact List.mem_cons_self
    have passed : Course.pass config (fork.one.horizon clock) (.windup hit) = ([], .windup hit) :=
      if_neg early
    have ready := level_settled host level fork
    dsimp only at ready
    rw [passed] at ready
    have winding : ∀ {b world}, Underway agent config (.windup hit) (fork.one.horizon clock) b →
        ¬ (Beat.mk .evaluation fork.frame b world).launches host := by
      rintro b world underway ⟨-, idle, -⟩
      have never : Phase.windup = .idle := (on_phase underway.on).symm.trans idle
      cases never
    have after := (level_evaluated ready fork.frame (one.settled host fork.frame fork.first).2
      (other.settled host fork.frame fork.second).2 (iff_of_false (winding ready.first)
        (winding ready.second))).2 (winding ready.first)
    exact ih after later

end

/-- A stun leaves the attack of an enemy alone. Let a host do whatever it likes, and
then stun an enemy that is not stunned, whose request is granted. Compare the enemy
with the same enemy not stunned, in later frames in which their worlds answer
alike. As long as the one has not begun an attack while the other was stunned,
they are in the same phase, both may attack or neither, and in the next frame they
handle the same alarms of attacks at the same clocks. This is so in any worlds
until the hit test of a windup that was in flight. -/
theorem stun_leaves_attacks_alone [StableId α] (host : Host α τ ω) (acts : List (Act α ω))
    {b : Brain α} (reached : b ∈ (Party.run host {} acts).brains)
    (awake : b.state.isStunned = false) (frame : Frame) (world : ω) :
    let stunned := (b.requestStun host frame world).2.1
    (b.requestStun host frame world).1 = true ∧
      ∀ (frames : List (Fork ω)) (next : Fork ω),
        let one := b.run host (frames.map Fork.one)
        let other := stunned.run host (frames.map Fork.other)
        let unstruck := ∀ stroke ∈ strokes (b.journal host (frames.map Fork.one)), stroke.1 ≠ .hit
        (Abreast host b stunned frames ∨ b.state.phase = .windup ∧ unstruck) →
          (other.state.phase = one.state.phase ∧ other.state.canAttack = one.state.canAttack) ∧
            strokes (other.beats host next.other) = strokes (one.beats host next.one) := by
  intro stunned
  have start : Orderly ({} : Party α) := ⟨by simp, by simp⟩
  have poised := (run_orderly host start acts).1.brains b reached
  have regular := poised_regular poised
  have regular' : Regular b.agent b.config ((Beat.mk .stun frame b world).act host).1 :=
    act_regular regular .stun
  have after : stunned.state = b.state.stun b.config := by
    have stuns := stun_after host frame world regular
    rw [awake] at stuns
    exact stuns
  obtain ⟨course, on⟩ := exists_course poised.restful.armed
  have level : Level b.agent b.config course b.state.alarms.horizon b stunned := by
    refine ⟨⟨regular, poised.restful.caught, rfl, on⟩, ⟨regular', ?_, ?_, ?_⟩, awake⟩
    · rw [after]
      exact poised.restful.caught
    · rw [after]
      rfl
    · rw [after]
      exact on_stun on awake
  have accepted : (b.requestStun host frame world).1 = true := by
    have answer := (requestStun_state host b.agent b.config ⟨world, b.state⟩).1
    rw [awake] at answer
    exact answer
  refine ⟨accepted, ?_⟩
  intro frames next one other unstruck abreast
  have later : ∃ course clock, Level b.agent b.config course clock one other := by
    rcases abreast with together | ⟨winding, early⟩
    · exact level_abreast level together
    · cases course with
      | windup hit => exact ⟨_, level_windup level early⟩
      | idle =>
        have never : Phase.windup = .idle := winding.symm.trans (on_phase on)
        cases never
      | cooldown ready =>
        have never : Phase.windup = .cooldown := winding.symm.trans (on_phase on)
        cases never
  obtain ⟨_, _, level_later⟩ := later
  exact ⟨level_same level_later, level_strokes host level_later next⟩

/-- A recruit is stunned in its windup. With and without the stun it goes through a
short frame, and strikes in the next. -/
theorem stunned_recruit_strikes :
    let b := (recruit.call Sandbox.host (.tick ⟨0, 0.5, 0⟩ neighbours)).1
    let stunned := (b.requestStun Sandbox.host ⟨1, 0.5, 0.5⟩ neighbours).2.1
    let short : Fork Sandbox := ⟨⟨1, 0.125, 0.5⟩, neighbours, neighbours⟩
    let next : Fork Sandbox := ⟨⟨2, 0.5, 0.625⟩, neighbours, {}⟩
    let one := (b.call Sandbox.host short.one).1
    let other := (stunned.call Sandbox.host short.other).1
    let acts := [.spawn 7 {}, .call 0 (.tick ⟨0, 0.5, 0⟩ neighbours)]
    (b ∈ (Party.run Sandbox.host {} acts).brains ∧ b.state.isStunned = false) ∧
      Abreast Sandbox.host b stunned [short] ∧
      strokes (other.beats Sandbox.host next.other) = strokes (one.beats Sandbox.host next.one) ∧
      (strokes (one.beats Sandbox.host next.one)).map Prod.fst = [.hit] := by
  intro b stunned short next one other acts
  have reached : b ∈ (Party.run Sandbox.host {} acts).brains := by
    simp [acts, Party.run, Party.act, create_recruit, b]
  have awake : b.state.isStunned = false := by decide +kernel
  have abreast : Abreast Sandbox.host b stunned [short] := by
    refine ⟨⟨by decide +kernel, by decide +kernel, ?_⟩, trivial⟩
    rintro ⟨⟨-, idle, -⟩, -⟩
    revert idle
    decide +kernel
  have told := stun_leaves_attacks_alone Sandbox.host acts reached awake ⟨1, 0.5, 0.5⟩ neighbours
  exact ⟨⟨reached, awake⟩, abreast, (told.2 [short] next (.inl abreast)).2, by decide +kernel⟩

end Sentry.Enemy
