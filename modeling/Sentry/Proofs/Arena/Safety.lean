import Mathlib.Algebra.Order.Floor.Div
import Sentry.Arena
import Sentry.Proofs.Enemy.Course
import Sentry.Proofs.Enemy.Labels
import Sentry.Proofs.Enemy.Pending
import Sentry.Proofs.Enemy.Records
import Sentry.Proofs.Enemy.Upkeep

/-! The arena is safe. Whatever the settings, a player without health is not damaged,
and an enemy that evaluates its tree then does not attack. So the health of the
player tells how often it has been damaged, and that is at most as often as it takes. -/
namespace Sentry
open Enemy Timer

/-- An infinite distance is beyond any finite range. -/
theorem infinity_not_le {range : Float32} (finite : range.isFinite = true) :
    ¬ Float32.ofBits 0x7F800000 ≤ range := by
  change range.toModel.unpack.isFinite = true at finite
  have infinite : (Float32.ofBits 0x7F800000).toModel.unpack = .infinity .positive := rfl
  rw [le_iff_compare32, infinite]
  cases shape : range.toModel.unpack with
  | infinity sign => simp [shape, Float.Model.UnpackedFloat.isFinite] at finite
  | notANumber => simp [shape, Float.Model.UnpackedFloat.isFinite] at finite
  | zero sign => simp [Float.Model.UnpackedFloat.compare]
  | finite sign m e positive => simp [Float.Model.UnpackedFloat.compare]

/-- An enemy far from its target patrols, or it is stunned. -/
theorem Enemy.respond_far {α τ ω : Type} (host : Host α τ ω) (agent : α) (config : Config)
    (scene : Scene ω)
    (no_attack : (Band.mk 0 config.attackRange).contains
      (host.targetDistance agent scene.world) = false)
    (no_chase : (Band.mk 0 config.detectionRange).contains
      (host.targetDistance agent scene.world) = false) :
    let after := (scene.respond host agent config).2.state
    after.label = .patrol ∨ after.label = .stunned := by
  intro after
  unfold after Scene.respond
  simp only [no_attack, no_chase, Bool.false_and, Bool.false_eq_true, if_false]
  split
  · right
    rw [enter_eq]
    rfl
  · left
    rw [patrol_label, enter_eq]

namespace Arena

/-! ## The loop as a script -/

/-- What a frame does with the enemy and the arena. -/
def turn (frame : Frame) : List (Step Arena) :=
  (if frame.tick = stunTick then [.stun frame] else []) ++
    [.change halt, .tick frame, .change (drift · frame.dt)]

/-- What several frames do, from a given one on. -/
def script (frame : Frame) : Nat → List (Step Arena)
  | 0 => []
  | count + 1 => script frame count ++ turn (count.repeat Frame.next frame)

namespace Run

variable (run : Run Arena)

theorem frame_after (count : Nat) :
    (run.after count).frame = count.repeat Frame.next run.frame := by
  induction count with
  | zero => rfl
  | succ count ih => exact congrArg Frame.next ih

theorem play_turn : ((Stage.mk run.brain run.world).play host (turn run.frame)).2 =
    ⟨run.step.brain, run.step.world⟩ := by
  unfold turn step
  by_cases stuns : run.frame.tick = stunTick
  · rw [if_pos stuns, if_pos stuns]
    rfl
  · rw [if_neg stuns, if_neg stuns]
    rfl

/-- The frames of a run are a script. -/
theorem play_script (count : Nat) :
    ((Stage.mk run.brain run.world).play host (script run.frame count)).2 =
      ⟨(run.after count).brain, (run.after count).world⟩ := by
  induction count with
  | zero => rfl
  | succ count ih =>
    rw [script, play_append, ih, ← frame_after]
    exact play_turn (run.after count)

end Run

/-! ## Damage -/

/-- The damage among what has been asked of the arena. -/
def damages (noted : List (Request UInt64 UInt32 × Arena)) :
    List (Request UInt64 UInt32 × Arena) :=
  noted.filter (·.1.isDamage)

/-- The health of the player tells how often it has been damaged, and it was never
damaged without any. -/
structure Tally (damage : UInt32) (world : Arena × List (Request UInt64 UInt32 × Arena)) :
    Prop where
  health : world.1.health.toNat = 50 - damage.toNat * (damages world.2).length
  alive : ∀ noted ∈ damages world.2, noted.2.health ≠ 0
  few : damage.toNat * ((damages world.2).length - 1) < 50

section
variable {damage : UInt32} {arena after : Arena}
  {noted : List (Request UInt64 UInt32 × Arena)} {request : Request UInt64 UInt32}

/-- Whatever leaves health alone and damages nothing keeps the tally. -/
theorem tally_harmless (tally : Tally damage (arena, noted)) (harmless : request.isDamage = false)
    (same : after.health = arena.health) : Tally damage (after, noted ++ [(request, arena)]) := by
  have no_more : damages (noted ++ [(request, arena)]) = damages noted := by
    simp [damages, harmless]
  refine ⟨?_, ?_, ?_⟩
  · rw [no_more, same]
    exact tally.health
  · rw [no_more]
    exact tally.alive
  · rw [no_more]
    exact tally.few

theorem tally_same (tally : Tally damage (arena, noted)) (same : after.health = arena.health) :
    Tally damage (after, noted) :=
  ⟨same ▸ tally.health, tally.alive, tally.few⟩

theorem hurt_toNat (arena : Arena) (amount : UInt32) :
    (arena.hurt amount).health.toNat = arena.health.toNat - amount.toNat := by
  unfold hurt
  dsimp only
  split
  next low =>
    rw [UInt32.le_iff_toNat_le] at low
    rw [Nat.sub_eq_zero_of_le low]
    rfl
  next high =>
    rw [UInt32.le_iff_toNat_le, not_le] at high
    exact UInt32.toNat_sub_of_le _ _ (UInt32.le_iff_toNat_le.mpr high.le)

/-- A player that is alive can be damaged. -/
theorem tally_damage (tally : Tally damage (arena, noted)) (alive : arena.health ≠ 0)
    (target : UInt32) : Tally damage (arena.hurt damage,
      noted ++ [(.command (.damage target damage), arena)]) := by
  have one_more : damages (noted ++ [(.command (.damage target damage), arena)]) =
      damages noted ++ [(.command (.damage target damage), arena)] := by
    simp [damages, Request.isDamage]
  have health := tally.health
  have left : arena.health.toNat ≠ 0 := fun none_left => alive (UInt32.toNat_inj.mp none_left)
  refine ⟨?_, ?_, ?_⟩
  · rw [one_more, hurt_toNat, List.length_append, List.length_singleton, Nat.mul_succ]
    dsimp only at health
    omega
  · rw [one_more, List.forall_mem_append, List.forall_mem_singleton]
    exact ⟨tally.alive, alive⟩
  · rw [one_more, List.length_append, List.length_singleton, Nat.add_sub_cancel]
    dsimp only at health
    omega

end

/-- Only a player that is alive can be found. -/
theorem find_alive {area : AreaQuery} {arena : Arena} {target : UInt32}
    (found : arena.find area = some target) : arena.health ≠ 0 := by
  unfold find at found
  split at found
  next reached =>
    rw [Bool.and_eq_true, Bool.and_eq_true] at reached
    simpa [playerAlive] using reached.1.2
  next => cases found

theorem tally_upheld (config : Config) :
    Upheld host.watched enemyId config (Tally config.attackDamage) := by
  constructor
  case directs =>
    rintro command ⟨arena, noted⟩ named tally
    cases command with
    | damage target amount => cases named
    | move agent direction speed =>
      refine tally_harmless tally rfl ?_
      unfold host perform
      dsimp only
      split <;> rfl
    | animate agent label => exact tally_harmless tally rfl rfl
    | trigger agent cue => exact tally_harmless tally rfl rfl
    | sound agent cue => exact tally_harmless tally rfl rfl
  case strikes =>
    rintro ⟨arena, noted⟩ state tally
    have here : host.watched.position (arena, noted) enemyId = some arena.enemy.position := rfl
    unfold Scene.resolveHit
    simp only [here]
    -- The search is noted, and what it finds is damaged in the same arena.
    generalize (⟨_, _, _⟩ : AreaQuery) = area
    have searched : Tally config.attackDamage (arena, noted ++ [(.query area, arena)]) :=
      tally_harmless tally rfl rfl
    cases found : arena.find area with
    | none => simpa [Host.watched, host, found] using searched
    | some target =>
      have damaged := tally_damage searched (find_alive found) target
      simpa [Host.watched, host, found, Scene.perform, perform] using damaged

/-! ## Runs -/

/-- Every change of the arena leaves health alone. -/
theorem change_health {frame : Frame} {count : Nat} {effect : Arena → Arena}
    (member : .change effect ∈ script frame count) (arena : Arena) :
    (effect arena).health = arena.health := by
  induction count with
  | zero => cases member
  | succ count ih =>
    rcases List.mem_append.mp member with earlier | last
    · exact ih earlier
    · rcases List.mem_append.mp last with stun | rest
      · split at stun <;> simp at stun
      · simp only [List.mem_cons, List.not_mem_nil, or_false, Step.change.injEq, reduceCtorEq,
          false_or] at rest
        rcases rest with rfl | rfl
        · unfold halt
          split <;> rfl
        · rfl

/-- How often a player can be damaged before it has no health left. -/
theorem length_le_ceilDiv {damage : UInt32} {world : Arena × List (Request UInt64 UInt32 × Arena)}
    (tally : Tally damage world) (harmful : 0 < damage) :
    (damages world.2).length ≤ 50 ⌈/⌉ damage.toNat := by
  have positive : 0 < damage.toNat := UInt32.lt_iff_toNat_lt.mp harmful
  by_contra more
  have enough : 50 ⌈/⌉ damage.toNat ≤ (damages world.2).length - 1 := by omega
  rw [ceilDiv_le_iff_le_mul positive] at enough
  exact absurd tally.few (by omega)

/-- The brain of the enemy between two frames. -/
structure Driven (config : Config) (b : Brain UInt64) : Prop where
  poised : Poised b
  agent : b.agent = enemyId
  config : b.config = config

section
variable {config : Config} {b : Brain UInt64}

theorem driven_call (driven : Driven config b) (call : Call Arena) :
    Driven config (b.call host call).1 := by
  obtain ⟨same_agent, same_config⟩ := call_spares host b call
  exact ⟨(call_poised host driven.poised call).1, same_agent.trans driven.agent,
    same_config.trans driven.config⟩

theorem driven_regular (driven : Driven config b) : Regular enemyId config b := by
  have regular := poised_regular driven.poised
  rw [driven.agent, driven.config] at regular
  exact regular

end

namespace Run

variable {config : Config} {run : Run Arena}

/-- A run with accepted settings begins. -/
theorem start_driven (accepted : config.fault? = none) :
    ∃ run, start config = .ok run ∧ Driven config run.brain ∧ run.world = initial := by
  have created : Brain.create enemyId config =
      .ok { agent := enemyId, config, decider := .ofTree (policy config) } := by
    unfold Brain.create
    rw [accepted]
  have poised := create_poised created
  have started := congrArg (Except.map fun brain : Brain UInt64 =>
    ({ world := initial
       brain := { brain with recorder := Trace.Recorder.withLog {} }
       frame := .fixedStep 0 Arena.step } : Run Arena)) created
  exact ⟨_, started, ⟨⟨poised.root, poised.restful⟩, rfl, rfl⟩, rfl⟩

/-- Several frames of a run, with every request noted beside the arena. -/
def watched (run : Run Arena) (count : Nat) :
    Stage UInt64 (Arena × List (Request UInt64 UInt32 × Arena)) :=
  (((Stage.mk run.brain run.world).beside []).play host.watched
    ((script run.frame count).map Step.beside)).2

theorem watched_after (run : Run Arena) (count : Nat) :
    (run.watched count).brain = (run.after count).brain ∧
      (run.watched count).world.1 = (run.after count).world := by
  obtain ⟨-, brain, world⟩ := play_beside (watched_mirrors host) (script run.frame count)
    ⟨run.brain, run.world⟩ []
  rw [play_script] at brain world
  exact ⟨brain, world⟩

theorem tally_watched (driven : Driven config run.brain) (begun : run.world = initial)
    (count : Nat) : Tally config.attackDamage (run.watched count).world := by
  apply upheld_play (tally_upheld config) ?_ driven.agent driven.config
  · change Tally config.attackDamage (run.world, [])
    rw [begun]
    exact ⟨rfl, by simp [damages], by simp [damages]⟩
  · rintro effect member ⟨arena, noted⟩ tally
    obtain ⟨step, inside, same⟩ := List.mem_map.mp member
    cases step with
    | change change =>
      cases same
      exact tally_same tally (change_health inside arena)
    | tick frame => cases same
    | stun frame => cases same

/-- The enemy and the arena once the stun of the next frame has been asked for. -/
def disturbed (run : Run Arena) : Brain UInt64 × Arena :=
  if run.frame.tick = stunTick then run.brain.call host (.stun run.frame run.world)
  else (run.brain, run.world)

/-- The evaluation of the tree in the next frame. -/
def evaluation (run : Run Arena) : Beat UInt64 Arena :=
  run.disturbed.1.evaluation host run.frame run.disturbed.2.halt

theorem step_brain (run : Run Arena) : run.step.brain =
    (run.disturbed.1.call host (.tick run.frame run.disturbed.2.halt)).1 := by
  unfold disturbed step
  by_cases stuns : run.frame.tick = stunTick
  · rw [if_pos stuns, if_pos stuns]
    rfl
  · rw [if_neg stuns, if_neg stuns]
    rfl

theorem driven_disturbed (driven : Driven config run.brain) : Driven config run.disturbed.1 := by
  unfold disturbed
  split
  · exact driven_call driven _
  · exact driven

theorem driven_after (driven : Driven config run.brain) (count : Nat) :
    Driven config (run.after count).brain := by
  induction count with
  | zero => exact driven
  | succ count ih =>
    change Driven config (run.after count).step.brain
    rw [step_brain]
    exact driven_call (driven_disturbed ih) _

/-- An enemy whose player has no health left neither attacks nor chases. -/
theorem calm_evaluation (accepted : config.fault? = none) {b : Brain UInt64}
    (regular : Regular enemyId config b) {arena : Arena} (dead : arena.health = 0)
    (frame : Frame) :
    let beat : Beat UInt64 Arena := ⟨.evaluation, frame, b, arena⟩
    ((beat.after host).label = .patrol ∨ (beat.after host).label = .stunned) ∧
      ¬ beat.launches host := by
  intro beat
  have unseen : host.targetDistance enemyId arena = Float32.ofBits 0x7F800000 := by
    have hidden : host.targetPosition arena enemyId = none := by
      simp [host, playerAlive, dead]
    have here : host.position arena enemyId = some arena.enemy.position := rfl
    unfold Host.targetDistance
    rw [here, hidden]
  have far : ∀ setting : Magnitude, (Band.mk 0 (setting.value config)).contains
      (host.targetDistance enemyId arena) = false := by
    intro setting
    have finite := (Config.forall_numbers.mp (Config.numbers_finite accepted)).1 setting
    rw [unseen, Band.contains, Bool.and_eq_false_iff]
    exact .inr (decide_eq_false (infinity_not_le finite))
  have no_attack : (Band.mk 0 config.attackRange).contains
      (host.targetDistance enemyId arena) = false := far .attackRange
  have no_chase := far .detectionRange
  constructor
  · have after : beat.after host = _ := (decide_eq host frame arena regular).1
    rw [after]
    exact respond_far host enemyId config ⟨arena, b.state⟩ no_attack no_chase
  · intro launches
    have near := ((launches_iff host regular frame arena).mp launches).2.2
    rw [no_attack] at near
    cases near

end Run

/-- In several frames of a run the health of the player tells how often it has been
damaged, which was never when it had none. If it has none when the tree is evaluated
in the next frame, the enemy begins no attack, and patrols or is stunned. -/
structure Run.Safe (config : Config) (run : Run Arena) (count : Nat) : Prop where
  brain : (run.watched count).brain = (run.after count).brain
  world : (run.watched count).world.1 = (run.after count).world
  health : (run.after count).world.health.toNat =
    50 - config.attackDamage.toNat * (damages (run.watched count).world.2).length
  alive : ∀ noted ∈ damages (run.watched count).world.2, noted.2.health ≠ 0
  few : 0 < config.attackDamage →
    (damages (run.watched count).world.2).length ≤ 50 ⌈/⌉ config.attackDamage.toNat
  calm : (run.after count).evaluation.world.health = 0 →
    ((run.after (count + 1)).brain.state.label = .patrol ∨
        (run.after (count + 1)).brain.state.label = .stunned) ∧
      ¬ (run.after count).evaluation.launches host

/-- Every run of the arena with accepted settings is safe, however long. -/
theorem arena_is_safe {config : Config} (accepted : config.fault? = none) :
    ∃ run, Run.start config = .ok run ∧ ∀ count, run.Safe config count := by
  obtain ⟨run, started, driven, begun⟩ := Run.start_driven accepted
  refine ⟨run, started, ?_⟩
  intro count
  have tally := Run.tally_watched driven begun count
  obtain ⟨brain, world⟩ := Run.watched_after run count
  have health := tally.health
  rw [world] at health
  refine ⟨brain, world, health, tally.alive, length_le_ceilDiv tally, ?_⟩
  intro dead
  have ready := Run.driven_disturbed (Run.driven_after driven count)
  have regular : Regular enemyId config (run.after count).evaluation.brain :=
    (settled_keeps [] (armed_kept host enemyId config) (driven_regular ready)
      ready.poised.restful.armed (run.after count).frame _).2.1
  have evaluated : (run.after (count + 1)).brain.state =
      (run.after count).evaluation.after host := by
    change (run.after count).step.brain.state = _
    rw [Run.step_brain]
    rfl
  rw [evaluated]
  exact Run.calm_evaluation accepted regular dead (run.after count).frame

/-- An enemy that reaches everything needs two hits. The second comes in the third
frame, in which it patrols. -/
theorem reaching_enemy_is_safe :
    let config : Config :=
      { attackRange := 64, attackRadius := 64, attackWindup := 0, attackCooldown := 0,
        attackDamage := 30 }
    config.fault? = none ∧ ∃ run, Run.start config = .ok run ∧
      (run.after 2).evaluation.world.health = 0 ∧
      ((run.after 3).brain.state.label = .patrol ∨ (run.after 3).brain.state.label = .stunned) ∧
      (damages (run.watched 3).world.2).length = 2 ∧
      (damages (run.watched 3).world.2).length ≤ 50 ⌈/⌉ config.attackDamage.toNat := by
  intro config
  have accepted : config.fault? = none := by decide +kernel
  obtain ⟨run, started, safe⟩ := arena_is_safe accepted
  have healths : (Run.start config).toOption.map (fun run =>
      ((run.after 2).evaluation.world.health, (damages (run.watched 3).world.2).length)) =
        some (0, 2) := by decide +kernel
  rw [started] at healths
  obtain ⟨dead, twice⟩ := Prod.ext_iff.mp (Option.some.inj healths)
  exact ⟨accepted, run, started, dead, ((safe 2).calm dead).1, twice, (safe 3).few (by decide)⟩

end Arena

end Sentry
