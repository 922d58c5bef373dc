import Sentry.Proofs.Enemy.Mirror

/-! Scripts. A host that follows a script ticks its enemy, asks to stun it and
changes the world in between, and the world passes from step to step. What holds
of two stages and is kept by steps that go together is kept by whole scripts, so
whatever is noted beside a world changes nothing. -/
namespace Sentry.Enemy

variable {α τ τ' ω ω' ρ : Type}

/-! ## Steps -/

/-- What a host does in turn. -/
inductive Step (ω : Type) where
  | tick (frame : Frame)
  | stun (frame : Frame)
  | change (effect : ω → ω)

/-- What an enemy reports at a step: its status, or whether it has been stunned. -/
inductive Report where
  | status (status : Status)
  | stunned (accepted : Bool)
  | nothing
  deriving DecidableEq

/-- An enemy and its world. -/
structure Stage (α ω : Type) where
  brain : Brain α
  world : ω

namespace Stage

/-- The report of a step, and the stage afterwards. -/
def step (host : Host α τ ω) (stage : Stage α ω) : Step ω → Report × Stage α ω
  | .tick frame =>
    let done := stage.brain.tick host frame stage.world
    (.status done.status, ⟨done.node, done.around⟩)
  | .stun frame =>
    let (accepted, brain, world) := stage.brain.requestStun host frame stage.world
    (.stunned accepted, ⟨brain, world⟩)
  | .change effect => (.nothing, { stage with world := effect stage.world })

/-- The reports of a script, and the stage afterwards. -/
def play (host : Host α τ ω) (stage : Stage α ω) : List (Step ω) → List Report × Stage α ω
  | [] => ([], stage)
  | first :: rest =>
    let done := stage.step host first
    let later := done.2.play host rest
    (done.1 :: later.1, later.2)

end Stage

theorem play_append (host : Host α τ ω) (stage : Stage α ω) (first second : List (Step ω)) :
    (stage.play host (first ++ second)).2 = ((stage.play host first).2.play host second).2 := by
  induction first generalizing stage with
  | nil => rfl
  | cons step rest ih => exact ih (stage.step host step).2

/-! ## Two stages -/

/-- If steps that go together keep two stages related and report the same, so do
scripts whose steps go together. -/
theorem play_related {host : Host α τ ω} {host' : Host α τ' ω'}
    (related : Stage α ω → Stage α ω' → Prop) {together : Step ω → Step ω' → Prop}
    (kept : ∀ {stage stage' step step'}, related stage stage' → together step step' →
      (stage'.step host' step').1 = (stage.step host step).1 ∧
        related (stage.step host step).2 (stage'.step host' step').2)
    {script : List (Step ω)} {script' : List (Step ω')}
    (scripts : List.Forall₂ together script script') {stage : Stage α ω} {stage' : Stage α ω'}
    (start : related stage stage') :
    (stage'.play host' script').1 = (stage.play host script).1 ∧
      related (stage.play host script).2 (stage'.play host' script').2 := by
  induction scripts generalizing stage stage' with
  | nil => exact ⟨rfl, start⟩
  | cons step rest ih =>
    obtain ⟨same, after⟩ := kept start step
    obtain ⟨same_later, later⟩ := ih after
    exact ⟨congrArg₂ List.cons same same_later, later⟩

/-! ## Notes beside a world -/

section
variable {mirror : Host α τ ω'} {host : Host α τ ω} {view : ω' → ω}
  (mirrors : Mirrors mirror host view) (frame : Frame) (b : Brain α) (world : ω')

include mirrors

theorem settle_mirror : b.settle host frame (view world) =
    ((b.settle mirror frame world).1, view (b.settle mirror frame world).2) := by
  fun_induction Brain.trail mirror frame b world with
  | case1 b world quiet pops => rw [settle_quiet pops, settle_quiet pops]
  | case2 b world alarm popped pops ih =>
    have handled : (b.withAlarms popped).handle host frame alarm (view world) = _ :=
      act_mirror mirrors ⟨.alarm alarm, frame, b.withAlarms popped, world⟩
    rw [settle_rings pops, settle_rings pops, handled]
    exact ih

theorem decide_mirror : b.decide host frame (view world) =
    let done := b.decide mirror frame world
    ⟨done.status, done.node, view done.around⟩ := by
  have evaluated := evaluate_mirror mirrors b.agent b.decider ⟨world, b.state⟩
  simp only [Scene.seen] at evaluated
  simp only [Brain.decide, evaluated]

theorem frame_mirror : b.tick host frame (view world) =
    let done := b.tick mirror frame world
    ⟨done.status, done.node, view done.around⟩ := by
  have settled := settle_mirror mirrors frame (b.woken frame) world
  have decided := decide_mirror mirrors frame ((b.woken frame).settle mirror frame world).1
    ((b.woken frame).settle mirror frame world).2
  change Brain.decide host frame ((b.woken frame).settle host frame (view world)).1
    ((b.woken frame).settle host frame (view world)).2 = _
  rw [settled]
  exact decided

theorem stun_mirror : b.requestStun host frame (view world) =
    let done := b.requestStun mirror frame world
    (done.1, done.2.1, view done.2.2) := by
  have stunned := requestStun_mirror mirrors b.agent b.config ⟨world, b.state⟩
  simp only [Scene.seen] at stunned
  simp only [Brain.requestStun, stunned]

end

/-- A step of a world that has something beside it, which the step leaves alone. -/
def Step.beside : Step ω → Step (ω × ρ)
  | .tick frame => .tick frame
  | .stun frame => .stun frame
  | .change effect => .change fun world => (effect world.1, world.2)

/-- A stage whose world has something beside it. -/
def Stage.beside (stage : Stage α ω) (noted : ρ) : Stage α (ω × ρ) :=
  ⟨stage.brain, (stage.world, noted)⟩

/-- Whatever a host notes beside its world, a script is played as without it. -/
theorem play_beside {host : Host α τ ω} {noting : Host α τ (ω × ρ)}
    (mirrors : Mirrors noting host Prod.fst) (script : List (Step ω)) (stage : Stage α ω)
    (noted : ρ) :
    let done := (stage.beside noted).play noting (script.map Step.beside)
    done.1 = (stage.play host script).1 ∧ done.2.brain = (stage.play host script).2.brain ∧
      done.2.world.1 = (stage.play host script).2.world := by
  have scripts : List.Forall₂ (fun (step : Step ω) (step' : Step (ω × ρ)) => step' = step.beside)
      script (script.map Step.beside) := by
    rw [List.forall₂_map_right_iff]
    exact List.forall₂_same.mpr fun step _ => rfl
  apply play_related (fun stage stage' =>
    stage'.brain = stage.brain ∧ stage'.world.1 = stage.world) ?_ scripts ?_
  · rintro ⟨-, -⟩ ⟨b, world⟩ step - ⟨rfl, rfl⟩ rfl
    cases step with
    | tick frame =>
      have ticked := frame_mirror mirrors frame b world
      simp [Stage.step, Step.beside, ticked]
    | stun frame =>
      have stunned := stun_mirror mirrors frame b world
      simp [Stage.step, Step.beside, stunned]
    | change effect => exact ⟨rfl, rfl, rfl⟩
  · exact ⟨rfl, rfl⟩

end Sentry.Enemy
