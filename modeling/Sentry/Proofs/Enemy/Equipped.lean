import Sentry.Proofs.Enemy.Beats

/-! Runs of a brain whose state a host may have set to anything. Such a brain
still has the tree of its settings. Nothing is known of its alarms, so there is
no order among the beats to rely on: what is carried along a run is what any
beat carries on, whenever it comes, and any change of the alarms. -/
namespace Sentry.Enemy
open Timer

variable {α τ ω : Type} {host : Host α τ ω} {agent : α} {config : Config} {b : Brain α}

theorem create_equipped (created : Brain.create agent config = .ok b) :
    Equipped agent config b :=
  regular_equipped (create_regular created).1

/-- A host that sets the state leaves the tree of the settings alone. -/
theorem equipped_withState (equipped : Equipped agent config b) (state : State) :
    Equipped agent config { b with state } :=
  ⟨equipped.root, equipped.agent, equipped.config⟩

theorem equipped_withAlarms (equipped : Equipped agent config b) (alarms : Queue Alarm) :
    Equipped agent config (b.withAlarms alarms) :=
  equipped_withState equipped { b.state with alarms }

/-- A property of the beats so far and the brain that any beat carries on, and
any change of the alarms. -/
structure Carried (host : Host α τ ω) (agent : α) (config : Config)
    (holds : List (Beat α ω) → Brain α → Prop) : Prop where
  moves : ∀ past {b} (alarms : Queue Alarm), holds past b → holds past (b.withAlarms alarms)
  acts : ∀ past {b} (cause : Cause) (frame : Frame) (world : ω), Equipped agent config b →
    holds past b →
      holds (past ++ [⟨cause, frame, b, world⟩]) ((Beat.mk cause frame b world).act host).1

variable {holds : List (Beat α ω) → Brain α → Prop} (past : List (Beat α ω))

theorem settle_carries (carried : Carried host agent config holds) (frame : Frame) (world : ω)
    (equipped : Equipped agent config b) (start : holds past b) :
    let done := b.settle host frame world
    holds (past ++ b.trail host frame world) done.1 ∧ Equipped agent config done.1 := by
  fun_induction Brain.trail host frame b world generalizing past with
  | case1 b world quiet pops =>
    rw [settle_quiet pops, List.append_nil]
    exact ⟨carried.moves past quiet start, equipped_withAlarms equipped quiet⟩
  | case2 b world alarm popped pops ih =>
    have ready := equipped_withAlarms equipped popped
    have rung := carried.acts past (.alarm alarm) frame world ready
      (carried.moves past popped start)
    rw [settle_rings pops, List.append_cons]
    exact ih _ (act_equipped ready (.alarm alarm)) rung

/-- At the evaluation of a tick the alarms that were due have been handled. -/
theorem settled_carries (carried : Carried host agent config holds) (frame : Frame) (world : ω)
    (equipped : Equipped agent config b) (start : holds past b) :
    let ready := (b.settled host frame world).1
    holds (past ++ (b.woken frame).trail host frame world) ready ∧
      Equipped agent config ready :=
  settle_carries past carried frame world (equipped_withAlarms equipped _)
    (carried.moves past _ start)

theorem call_carries (carried : Carried host agent config holds)
    (equipped : Equipped agent config b) (start : holds past b) (call : Call ω) :
    let after := (b.call host call).1
    holds (past ++ b.beats host call) after ∧ Equipped agent config after := by
  cases call with
  | tick frame world =>
    obtain ⟨ready, equipped_ready⟩ := settled_carries past carried frame world equipped start
    have decided := carried.acts _ .evaluation frame (b.settled host frame world).2
      equipped_ready ready
    rw [Brain.beats, ← List.append_assoc]
    exact ⟨decided, act_equipped equipped_ready .evaluation⟩
  | stun frame world =>
    exact ⟨carried.acts past .stun frame world equipped start, act_equipped equipped .stun⟩

/-- What any beat carries on holds at the end of any run. -/
theorem run_carries (carried : Carried host agent config holds)
    (equipped : Equipped agent config b) (start : holds past b) (calls : List (Call ω)) :
    let after := b.run host calls
    holds (past ++ b.journal host calls) after ∧ Equipped agent config after := by
  induction calls generalizing b past with
  | nil =>
    rw [Brain.journal, List.append_nil]
    exact ⟨start, equipped⟩
  | cons call rest ih =>
    obtain ⟨first, equipped_after⟩ := call_carries past carried equipped start call
    rw [Brain.journal, ← List.append_assoc]
    exact ih _ equipped_after first

end Sentry.Enemy
