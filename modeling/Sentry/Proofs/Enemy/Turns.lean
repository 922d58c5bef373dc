import Sentry.Proofs.Enemy.Mirror
import Sentry.Proofs.Enemy.Pending
import Sentry.Proofs.Enemy.Timeline

/-! Turns of a squad. In a frame every brain has one turn, by rising number, in
the world that the turn before it has left. So it does not matter in which order
a host stores its brains, as long as brains that share a number stay in order. -/
namespace Sentry.Enemy

variable {α τ ω : Type}

/-! ## A turn -/

section
variable (host : Host α τ ω) (frame : Frame) (b : Brain α) (world : ω)

theorem act_agent (beat : Beat α ω) : (beat.act host).1.agent = beat.brain.agent := by
  obtain ⟨cause, frame, b, world⟩ := beat
  cases cause with
  | alarm alarm => rfl
  | evaluation =>
    unfold Beat.act Brain.decide
    dsimp only
    split <;> rfl
  | stun =>
    unfold Beat.act Brain.requestStun
    dsimp only
    split <;> rfl

theorem settle_agent : (b.settle host frame world).1.agent = b.agent := by
  fun_induction Brain.trail host frame b world with
  | case1 b world quiet pops =>
    rw [settle_quiet pops]
    rfl
  | case2 b world alarm popped pops ih =>
    rw [settle_rings pops]
    exact ih.trans (act_agent host ⟨.alarm alarm, frame, b.withAlarms popped, world⟩)

theorem tick_agent : (b.tick host frame world).node.agent = b.agent :=
  (act_agent host (b.evaluation host frame world)).trans (settle_agent host frame _ world)

/-- What a brain asks of its host in a frame, in order. -/
def Brain.requests : List (Request α τ) :=
  (b.beats host (.tick frame world)).flatMap (Beat.requests host)

/-- A recorded turn is a turn, and a record of what the brain asks for. -/
theorem tick_recorded (log : List (Request α τ)) :
    ((b.tick host.recorded frame (world, log)).node,
        (b.tick host.recorded frame (world, log)).around) =
      ((b.tick host frame world).node, (b.tick host frame world).around,
        log ++ b.requests host frame world) :=
  call_recorded host b (.tick frame world) log

end

/-- The number that orders a brain. -/
def Brain.number [StableId α] (b : Brain α) : UInt64 :=
  StableId.stableId b.agent

namespace Squad

/-- Each brain with the world in which its turn begins. -/
def turns (host : Host α τ ω) (frame : Frame) : List (Brain α) → ω → List (Brain α × ω)
  | [], _ => []
  | b :: rest, world => (b, world) :: turns host frame rest (b.tick host frame world).around

/-- What the brains of a squad ask of their host in a frame, in order. -/
def requests (host : Host α τ ω) (frame : Frame) (brains : List (Brain α)) (world : ω) :
    List (Request α τ) :=
  (turns host frame brains world).flatMap fun turn => turn.1.requests host frame turn.2

section
variable (host : Host α τ ω) (frame : Frame) (brains : List (Brain α)) (world : ω)

theorem turns_brains : (turns host frame brains world).map Prod.fst = brains := by
  induction brains generalizing world with
  | nil => rfl
  | cons b rest ih =>
    rw [turns, List.map_cons, ih]

theorem tickInOrder_eq : tickInOrder host frame brains world =
    ((turns host frame brains world).map fun turn => (turn.1.tick host frame turn.2).node,
      brains.foldl (fun world b => (b.tick host frame world).around) world) := by
  induction brains generalizing world with
  | nil => rfl
  | cons b rest ih =>
    rw [tickInOrder, ih]
    rfl

theorem tickInOrder_recorded (log : List (Request α τ)) :
    tickInOrder host.recorded frame brains (world, log) =
      ((tickInOrder host frame brains world).1, (tickInOrder host frame brains world).2,
        log ++ requests host frame brains world) := by
  induction brains generalizing world log with
  | nil =>
    rw [requests, turns, List.flatMap_nil, List.append_nil]
    rfl
  | cons b rest ih =>
    obtain ⟨node, around⟩ := Prod.mk.inj (tick_recorded host frame b world log)
    simp only [tickInOrder]
    rw [node, around, ih]
    simp only [requests, turns, List.flatMap_cons, List.append_assoc]

end

/-! ## Stable order -/

variable [StableId α] {left right brains : List (Brain α)}

/-- The brains of one number, in order. -/
def sharing (number : UInt64) (brains : List (Brain α)) : List (Brain α) :=
  brains.filter (·.number = number)

/-- The same brains in another order, in which those that share a number keep
theirs. -/
def Rearranged (left right : List (Brain α)) : Prop :=
  ∀ number, sharing number left = sharing number right

/-- The brains have different numbers. -/
def Distinct (brains : List (Brain α)) : Prop :=
  (brains.map Brain.number).Nodup

/-- Brains stand by rising number. -/
def Rising (brains : List (Brain α)) : Prop :=
  brains.Pairwise fun earlier later => earlier.number ≤ later.number

/-- The comparison that squads are sorted by. -/
private def precedes (earlier later : Brain α) : Bool :=
  earlier.number ≤ later.number

private theorem precedes_trans (a b c : Brain α) (first : precedes a b) (second : precedes b c) :
    precedes a c := by
  unfold precedes at *
  rw [decide_eq_true_eq] at *
  exact UInt64.le_trans first second

private theorem precedes_total (a b : Brain α) : precedes a b || precedes b a := by
  unfold precedes
  rw [Bool.or_eq_true, decide_eq_true_eq, decide_eq_true_eq]
  exact UInt64.le_total _ _

theorem ordered_perm (brains : List (Brain α)) : (ordered brains).Perm brains :=
  List.mergeSort_perm brains precedes

theorem ordered_rising (brains : List (Brain α)) : Rising (ordered brains) := by
  have sorted := List.pairwise_mergeSort precedes_trans precedes_total brains
  exact sorted.imp of_decide_eq_true

theorem mem_sharing {number : UInt64} {b : Brain α} :
    b ∈ sharing number brains ↔ b ∈ brains ∧ b.number = number := by
  rw [sharing, List.mem_filter, decide_eq_true_eq]

/-- Sorting is stable. -/
theorem ordered_sharing (brains : List (Brain α)) : Rearranged (ordered brains) brains := by
  intro number
  have level : (sharing number brains).Pairwise fun a b => precedes a b := by
    rw [List.pairwise_iff_forall_sublist]
    intro a b sub
    have a_shares := (mem_sharing.mp (sub.subset List.mem_cons_self)).2
    have b_shares := (mem_sharing.mp (sub.subset (List.mem_cons_of_mem a List.mem_cons_self))).2
    rw [precedes, a_shares, b_shares, decide_eq_true_eq]
    exact UInt64.le_refl number
  have kept : (sharing number brains).Sublist (ordered brains) :=
    List.sublist_mergeSort precedes_trans precedes_total level List.filter_sublist
  have shared := kept.filter (·.number = number)
  have size := ((ordered_perm brains).filter (·.number = number)).length_eq
  have idempotent : (sharing number brains).filter (·.number = number) = sharing number brains := by
    rw [sharing, List.filter_filter]
    simp only [Bool.and_self]
  rw [idempotent] at shared
  exact (shared.eq_of_length size.symm).symm

/-- Brains that stand by rising number stand in one order only, up to those that
share a number. -/
theorem rising_unique (left_rises : Rising left) (right_rises : Rising right)
    (same : Rearranged left right) : left = right := by
  induction left generalizing right with
  | nil =>
    cases right with
    | nil => rfl
    | cons b rest =>
      have shared : b ∈ sharing b.number (b :: rest) := mem_sharing.mpr ⟨List.mem_cons_self, rfl⟩
      rw [← same b.number] at shared
      cases shared
  | cons a others ih =>
    have a_shared : a ∈ sharing a.number (a :: others) := mem_sharing.mpr ⟨List.mem_cons_self, rfl⟩
    rw [same a.number, mem_sharing] at a_shared
    cases right with
    | nil => cases a_shared.1
    | cons b rest =>
      have b_shared : b ∈ sharing b.number (b :: rest) :=
        mem_sharing.mpr ⟨List.mem_cons_self, rfl⟩
      rw [← same b.number, mem_sharing] at b_shared
      obtain ⟨a_first, left_rest⟩ := List.pairwise_cons.mp left_rises
      obtain ⟨b_first, right_rest⟩ := List.pairwise_cons.mp right_rises
      -- Neither head has a greater number than the other, so they share it.
      have level : a.number = b.number := by
        apply UInt64.le_antisymm
        · rcases List.mem_cons.mp b_shared.1 with rfl | later
          · exact UInt64.le_refl _
          · exact a_first b later
        · rcases List.mem_cons.mp a_shared.1 with rfl | later
          · exact UInt64.le_refl _
          · exact b_first a later
      have heads := same a.number
      rw [sharing, sharing, List.filter_cons_of_pos (by simp),
        List.filter_cons_of_pos (by simp [level])] at heads
      obtain ⟨rfl, -⟩ := List.cons.inj heads
      have tails : Rearranged others rest := by
        intro number
        have both := same number
        unfold sharing at both ⊢
        rw [List.filter_cons, List.filter_cons] at both
        split at both
        · exact (List.cons.inj both).2
        · exact both
      rw [ih left_rest right_rest tails]

theorem ordered_of_rising (rises : Rising brains) : ordered brains = brains :=
  rising_unique (ordered_rising brains) rises (ordered_sharing brains)

theorem ordered_eq_of_rearranged (same : Rearranged left right) : ordered left = ordered right := by
  apply rising_unique (ordered_rising left) (ordered_rising right)
  intro number
  rw [ordered_sharing left number, ordered_sharing right number]
  exact same number

/-- Any other order will do for brains of different numbers. -/
theorem rearranged_of_perm (distinct : Distinct left) (perm : left.Perm right) :
    Rearranged left right := by
  have same : ordered left = ordered right := by
    apply List.Perm.eq_of_pairwise _ (ordered_rising left) (ordered_rising right)
      ((ordered_perm left).trans (perm.trans (ordered_perm right).symm))
    intro a b a_member b_member le ge
    rw [(ordered_perm left).mem_iff] at a_member
    rw [(ordered_perm right).mem_iff, ← perm.mem_iff] at b_member
    exact List.inj_on_of_nodup_map distinct a_member b_member (UInt64.le_antisymm le ge)
  intro number
  rw [← ordered_sharing left number, ← ordered_sharing right number, same]

/-! ## Many frames -/

/-- What a host does to the world before a frame. -/
structure Round (ω : Type) where
  change : ω → ω
  frame : Frame

/-- The same in a recorded world. -/
def Round.recorded (round : Round ω) : Round (ω × List (Request α τ)) :=
  ⟨Prod.map round.change id, round.frame⟩

/-- Several frames, before each of which the host stores its brains in another
order. -/
inductive Runs (stores : List (Brain α) → List (Brain α) → Prop) (host : Host α τ ω) :
    List (Round ω) → List (Brain α) × ω → List (Brain α) × ω → Prop where
  | done {now} : Runs stores host [] now now
  | round {first rest brains stored world after} (kept : stores brains stored)
      (others : Runs stores host rest
        (tick host first.frame stored (first.change world)) after) :
      Runs stores host (first :: rest) (brains, world) after

/-- The same frames, the brains staying as they are. -/
def frames (host : Host α τ ω) (rounds : List (Round ω)) (start : List (Brain α) × ω) :
    List (Brain α) × ω :=
  rounds.foldl (fun now round => tick host round.frame now.1 (round.change now.2)) start

section
variable {host : Host α τ ω} {stored : List (Brain α)}

theorem tick_rearranged (same : Rearranged brains stored) (frame : Frame) (world : ω) :
    tick host frame stored world = tick host frame brains world := by
  rw [tick, tick, ordered_eq_of_rearranged same]

theorem runs_rearranged_iff {rounds : List (Round ω)} {start after : List (Brain α) × ω} :
    Runs Rearranged host rounds start after ↔ after = frames host rounds start := by
  constructor
  · intro runs
    induction runs with
    | done => rfl
    | @round first rest brains stored world after kept others ih =>
      rw [ih, tick_rearranged kept]
      rfl
  · rintro rfl
    induction rounds generalizing start with
    | nil => exact .done
    | cons first rest ih => exact .round (fun _ => rfl) ih

theorem tick_numbers (frame : Frame) (brains : List (Brain α)) (world : ω) :
    (tick host frame brains world).1.map Brain.number = (ordered brains).map Brain.number := by
  have kept : ∀ turn : Brain α × ω, (turn.1.tick host frame turn.2).node.number = turn.1.number :=
    fun turn => congrArg StableId.stableId (tick_agent host frame turn.1 turn.2)
  have brains_of := turns_brains host frame (ordered brains) world
  rw [tick, tickInOrder_eq, List.map_map, ← congrArg (List.map Brain.number) brains_of,
    List.map_map]
  exact List.map_congr_left fun turn _ => kept turn

theorem tick_distinct (distinct : Distinct brains) (frame : Frame) (world : ω) :
    Distinct (tick host frame brains world).1 := by
  rw [Distinct, tick_numbers]
  exact ((ordered_perm brains).map Brain.number).nodup_iff.mpr distinct

theorem perm_of_rearranged (same : Rearranged left right) : left.Perm right := by
  have sorted := ordered_perm left
  rw [ordered_eq_of_rearranged same] at sorted
  exact sorted.symm.trans (ordered_perm right)

theorem runs_perm_iff {rounds : List (Round ω)} {start after : List (Brain α) × ω}
    (distinct : Distinct start.1) :
    Runs List.Perm host rounds start after ↔ after = frames host rounds start := by
  rw [← runs_rearranged_iff]
  constructor
  · intro runs
    induction runs with
    | done => exact .done
    | @round first rest brains stored world after perm others ih =>
      have stored_distinct : Distinct stored := (perm.map Brain.number).nodup_iff.mp distinct
      exact .round (rearranged_of_perm distinct perm) (ih (tick_distinct stored_distinct _ _))
  · intro runs
    clear distinct
    induction runs with
    | done => exact .done
    | round same others ih => exact .round (perm_of_rearranged same) ih

end

/-- A frame in which every brain has one turn, by rising number, and the stored
order decides between brains that share a number. -/
structure InTurn (host : Host α τ ω) (frame : Frame) (brains : List (Brain α)) (world : ω) :
    Prop where
  once : ((turns host frame (ordered brains) world).map Prod.fst).Perm brains
  rising : Rising ((turns host frame (ordered brains) world).map Prod.fst)
  stable : Rearranged ((turns host frame (ordered brains) world).map Prod.fst) brains
  ticked : (tick host frame brains world).1 =
    (turns host frame (ordered brains) world).map fun turn => (turn.1.tick host frame turn.2).node
  around : (tick host frame brains world).2 =
    (ordered brains).foldl (fun world b => (b.tick host frame world).around) world
  sorted : Rising (tick host frame brains world).1
  recorded : ∀ log, tick host.recorded frame brains (world, log) =
    ((tick host frame brains world).1, (tick host frame brains world).2,
      log ++ requests host frame (ordered brains) world)

theorem tick_in_turn (host : Host α τ ω) (frame : Frame) (brains : List (Brain α)) (world : ω) :
    InTurn host frame brains world := by
  have turn_order := turns_brains host frame (ordered brains) world
  have whole := tickInOrder_eq host frame (ordered brains) world
  constructor
  case once =>
    rw [turn_order]
    exact ordered_perm brains
  case rising =>
    rw [turn_order]
    exact ordered_rising brains
  case stable =>
    rw [turn_order]
    exact ordered_sharing brains
  case ticked => exact congrArg Prod.fst whole
  case around => exact congrArg Prod.snd whole
  case sorted =>
    have numbers : (ordered brains).map Brain.number |>.Pairwise (· ≤ ·) :=
      List.pairwise_map.mpr (ordered_rising brains)
    rw [← tick_numbers frame brains world] at numbers
    exact List.pairwise_map.mp numbers
  case recorded => exact tickInOrder_recorded host frame (ordered brains) world

end Squad

/-- The order in which a host stores its brains does not show. In any frame every
brain has one turn, by rising number. Over any number of frames a host may store
brains of different numbers in any order before each of them: brains, world and
all that the host was asked for become the same as if it had left them alone.
Where brains share a number, the same is true of any order in which those keep
theirs. -/
theorem storage_order_is_immaterial [StableId α] (host : Host α τ ω) (brains : List (Brain α))
    (world : ω) :
    (∀ frame, Squad.InTurn host frame brains world) ∧
      ∀ (rounds : List (Squad.Round ω)) (log : List (Request α τ))
        (after : List (Brain α) × ω × List (Request α τ)),
        let recorded := rounds.map Squad.Round.recorded
        let left_alone := Squad.frames host.recorded recorded (brains, world, log)
        (Squad.Distinct brains →
          (Squad.Runs List.Perm host.recorded recorded (brains, world, log) after ↔
            after = left_alone)) ∧
        (Squad.Runs Squad.Rearranged host.recorded recorded (brains, world, log) after ↔
          after = left_alone) := by
  refine ⟨fun frame => Squad.tick_in_turn host frame brains world, ?_⟩
  intro rounds log after recorded left_alone
  exact ⟨fun distinct => Squad.runs_perm_iff distinct, Squad.runs_rearranged_iff⟩

/-- Two recruits change places before each of two frames. The one with the
smaller number still goes first. -/
theorem recruits_keep_their_turns :
    let late : Brain UInt64 := { recruit with agent := 9 }
    let rounds : List (Squad.Round Sandbox) :=
      [⟨id, ⟨0, 0.5, 0⟩⟩, ⟨Sandbox.drift 0.5, ⟨1, 0.5, 0.5⟩⟩]
    let first := Squad.tick Sandbox.host.recorded ⟨0, 0.5, 0⟩ [late, recruit] (neighbours, [])
    let after := Squad.tick Sandbox.host.recorded ⟨1, 0.5, 0.5⟩ first.1.reverse
      (Sandbox.drift 0.5 first.2.1, first.2.2)
    Squad.Distinct [recruit, late] ∧
      after = Squad.frames Sandbox.host.recorded (rounds.map Squad.Round.recorded)
        ([recruit, late], neighbours, []) ∧
      first.2.2.head? = some (.command (.animate 7 .attack)) := by
  intro late rounds first after
  have distinct : Squad.Distinct [recruit, late] := by
    unfold Squad.Distinct
    decide
  have rises : Squad.Rising [recruit, late] := by
    unfold Squad.Rising
    decide
  have runs : Squad.Runs List.Perm Sandbox.host.recorded (rounds.map Squad.Round.recorded)
      ([recruit, late], neighbours, []) after :=
    .round (.swap late recruit []) (.round (List.reverse_perm first.1).symm .done)
  have same := ((storage_order_is_immaterial Sandbox.host [recruit, late] neighbours).2
    rounds [] after).1 distinct |>.mp runs
  have swapped : Squad.Rearranged [recruit, late] [late, recruit] :=
    Squad.rearranged_of_perm distinct (.swap late recruit [])
  have in_order : first = Squad.tickInOrder Sandbox.host.recorded ⟨0, 0.5, 0⟩ [recruit, late]
      (neighbours, []) := by
    rw [← Squad.ordered_of_rising rises]
    exact Squad.tick_rearranged swapped _ _
  refine ⟨distinct, same, ?_⟩
  rw [in_order]
  decide +kernel

end Sentry.Enemy
