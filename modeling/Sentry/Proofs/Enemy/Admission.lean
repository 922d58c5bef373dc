import Sentry.Enemy.Brain
import Sentry.Proofs.Enemy.Saved
import Sentry.Proofs.Number.Patterns

/-! Admission of records. The violations of a record have an order, in which the
test of a record finds the first one; a record without violations is accepted.
Nothing else decides whether an enemy is made or a text of a record is refused. -/
namespace Sentry.Enemy
open Rounding

/-- The names of the magnitudes, in the order in which they are tested. -/
def testOrder : List String :=
  ["attack_range", "detection_range", "patrol_speed", "chase_speed", "attack_windup_seconds",
    "attack_cooldown_seconds", "attack_radius", "stun_seconds"]

/-- The place of a violation: magnitudes come first, then the tolerance, the offset
and the waypoints. -/
def ConfigFault.rank : ConfigFault → ℕ
  | .magnitude setting _ => testOrder.idxOf setting.key
  | .tolerance _ => 8
  | .offset => 9
  | .waypoint index => 10 + index

namespace Config

/-- What the values of a record have to be. -/
structure Sound (config : Config) : Prop where
  magnitudes : ∀ setting : Magnitude,
    (setting.value config).isFinite = true ∧ ¬ setting.value config < 0
  tolerance : config.waypointTolerance.isFinite = true ∧ 0 < config.waypointTolerance
  offset : config.attackOffset.x.isFinite = true ∧ config.attackOffset.y.isFinite = true
  route : ∀ point ∈ config.route, point.x.isFinite = true ∧ point.y.isFinite = true

/-- A violation, whether it comes first or not. It names the value. -/
inductive Violates (config : Config) : ConfigFault → Prop
  | magnitude (setting : Magnitude)
    (wrong : ¬ ((setting.value config).isFinite = true ∧ ¬ setting.value config < 0)) :
    Violates config (.magnitude setting (setting.value config))
  | tolerance
    (wrong : ¬ (config.waypointTolerance.isFinite = true ∧ 0 < config.waypointTolerance)) :
    Violates config (.tolerance config.waypointTolerance)
  | offset
    (wrong : ¬ (config.attackOffset.x.isFinite = true ∧ config.attackOffset.y.isFinite = true)) :
    Violates config .offset
  | waypoint (index : ℕ) {point : Vec} (there : config.route[index]? = some point)
    (wrong : ¬ (point.x.isFinite = true ∧ point.y.isFinite = true)) :
    Violates config (.waypoint index)

/-- The first violation. -/
structure FirstFault (config : Config) (fault : ConfigFault) : Prop where
  violated : config.Violates fault
  first : ∀ other, config.Violates other → fault.rank ≤ other.rank

/-- All violations in their order. -/
def violations (config : Config) : List ConfigFault :=
  ((Magnitude.all.filter fun setting => !isMagnitude (setting.value config)).map fun setting =>
    .magnitude setting (setting.value config)) ++
  ((if isTolerance config.waypointTolerance then [] else [.tolerance config.waypointTolerance]) ++
  ((if config.attackOffset.isFinite then [] else [.offset]) ++
  (config.route.zipIdx.filter fun entry => !entry.1.isFinite).map fun entry => .waypoint entry.2))

/-! ## Values -/

theorem isMagnitude_iff (x : Float32) : isMagnitude x = true ↔ x.isFinite = true ∧ ¬ x < 0 := by
  simp [isMagnitude]

/-- A finite number is positive or it is not. -/
theorem isTolerance_iff (x : Float32) : isTolerance x = true ↔ x.isFinite = true ∧ 0 < x := by
  rw [isTolerance, Bool.and_eq_true, Bool.not_eq_true', decide_eq_false_iff_not]
  refine and_congr_right fun finite => ?_
  rw [le_iff_compare32, lt_iff_compare32, unpack_zero32]
  change x.toModel.unpack.isFinite = true at finite
  cases shape : x.toModel.unpack with
  | infinity sign => rw [shape] at finite; cases finite
  | notANumber => rw [shape] at finite; cases finite
  | zero sign => simp [Float.Model.UnpackedFloat.compare]
  | finite sign m e positive => cases sign <;> simp [Float.Model.UnpackedFloat.compare]

theorem sound_iff (config : Config) : config.fault? = none ↔ config.Sound := by
  simp only [fault_eq_none_iff, isMagnitude_iff, isTolerance_iff, Vec.isFinite_iff]
  exact ⟨fun ⟨magnitudes, tolerance, offset, route⟩ => ⟨magnitudes, tolerance, offset, route⟩,
    fun ⟨magnitudes, tolerance, offset, route⟩ => ⟨magnitudes, tolerance, offset, route⟩⟩

/-! ## The order of violations -/

theorem fault_eq_head (config : Config) : config.fault? = config.violations.head? := by
  have magnitudes : config.magnitudeFault? =
      ((Magnitude.all.filter fun setting => !isMagnitude (setting.value config)).map fun setting =>
        ConfigFault.magnitude setting (setting.value config)).head? := by
    rw [magnitudeFault?, List.head?_map, List.head?_filter]
  have route : (config.route.findIdx? fun point => !point.isFinite).map ConfigFault.waypoint =
      ((config.route.zipIdx.filter fun entry => !entry.1.isFinite).map fun entry =>
        ConfigFault.waypoint entry.2).head? := by
    rw [List.findIdx?_eq_fst_find?_zipIdx, List.head?_map, List.head?_filter, Option.map_map]
    rfl
  simp only [fault?, violations, List.head?_append, ← magnitudes, ← route, Option.orElse_eq_orElse,
    Option.orElse_eq_or]
  congr 2
  · split <;> rfl
  · congr 1
    split <;> rfl

theorem mem_violations (config : Config) (fault : ConfigFault) :
    fault ∈ config.violations ↔ config.Violates fault := by
  simp only [violations, List.mem_append, List.mem_map, List.mem_filter, Bool.not_eq_true',
    Bool.eq_false_iff, Ne, isMagnitude_iff]
  constructor
  · rintro (⟨setting, ⟨-, wrong⟩, rfl⟩ | tolerance | offset | ⟨⟨point, index⟩, ⟨there, wrong⟩, rfl⟩)
    · exact .magnitude setting wrong
    · split_ifs at tolerance with fits
      · cases tolerance
      · rw [List.mem_singleton.mp tolerance]
        exact .tolerance (mt (isTolerance_iff _).mpr fits)
    · split_ifs at offset with finite
      · cases offset
      · rw [List.mem_singleton.mp offset]
        exact .offset (mt (Vec.isFinite_iff _).mpr finite)
    · exact .waypoint index (List.mk_mem_zipIdx_iff_getElem?.mp there)
        (mt (Vec.isFinite_iff _).mpr wrong)
  · rintro (⟨setting, wrong⟩ | wrong | wrong | ⟨index, there, wrong⟩)
    · exact .inl ⟨setting, ⟨mem_magnitudes setting, wrong⟩, rfl⟩
    · rw [if_neg (mt (isTolerance_iff _).mp wrong)]
      exact .inr (.inl (List.mem_singleton_self _))
    · rw [if_neg (mt (Vec.isFinite_iff _).mp wrong)]
      exact .inr (.inr (.inl (List.mem_singleton_self _)))
    · exact .inr (.inr (.inr ⟨(_, index), ⟨List.mk_mem_zipIdx_iff_getElem?.mpr there,
        mt (Vec.isFinite_iff _).mp wrong⟩, rfl⟩))

theorem rank_magnitude (setting : Magnitude) (value : Float32) :
    (ConfigFault.magnitude setting value).rank < 8 := by
  change testOrder.idxOf setting.key < 8
  cases setting <;> decide

/-- Each violation comes before those behind it in the list. -/
theorem violations_rising (config : Config) :
    config.violations.Pairwise fun earlier later => earlier.rank < later.rank := by
  have magnitudes : Magnitude.all.Pairwise fun earlier later =>
      testOrder.idxOf earlier.key < testOrder.idxOf later.key := by decide
  have places : config.route.zipIdx.Pairwise fun earlier later => earlier.2 < later.2 := by
    rw [← List.pairwise_map, List.zipIdx_map_snd]
    exact List.pairwise_lt_range'
  have tolerance : ∀ fault ∈ (if isTolerance config.waypointTolerance then []
      else [ConfigFault.tolerance config.waypointTolerance]), fault.rank = 8 := by
    split <;> simp [ConfigFault.rank]
  have offset : ∀ fault ∈ (if config.attackOffset.isFinite then [] else [ConfigFault.offset]),
      fault.rank = 9 := by
    split <;> simp [ConfigFault.rank]
  have route : ∀ fault ∈ (config.route.zipIdx.filter fun entry => !entry.1.isFinite).map
      fun entry => ConfigFault.waypoint entry.2, 10 ≤ fault.rank := by
    rw [List.forall_mem_map]
    exact fun entry _ => Nat.le_add_right 10 entry.2
  refine List.pairwise_append.mpr ⟨?_, List.pairwise_append.mpr ⟨?_,
    List.pairwise_append.mpr ⟨?_, ?_, ?_⟩, ?_⟩, ?_⟩
  · exact List.pairwise_map.mpr (magnitudes.filter _)
  · split <;> simp
  · split <;> simp
  · refine List.pairwise_map.mpr ((places.filter _).imp ?_)
    exact fun earlier => Nat.add_lt_add_left earlier 10
  · intro earlier member later behind
    have := offset earlier member
    have := route later behind
    omega
  · intro earlier member later behind
    have := tolerance earlier member
    rcases List.mem_append.mp behind with behind | behind
    · have := offset later behind
      omega
    · have := route later behind
      omega
  · rw [List.forall_mem_map]
    intro setting _ later behind
    have := rank_magnitude setting (setting.value config)
    rcases List.mem_append.mp behind with behind | behind
    · have := tolerance later behind
      omega
    · rcases List.mem_append.mp behind with behind | behind
      · have := offset later behind
        omega
      · have := route later behind
        omega

/-- The test of a record finds the first violation. -/
theorem fault_eq_some_iff (config : Config) (fault : ConfigFault) :
    config.fault? = some fault ↔ config.FirstFault fault := by
  have rising := violations_rising config
  rw [fault_eq_head]
  constructor
  · intro head
    obtain ⟨behind, shape⟩ := List.head?_eq_some_iff.mp head
    rw [shape, List.pairwise_cons] at rising
    refine ⟨(mem_violations config fault).mp (List.mem_of_head? head), fun other violated => ?_⟩
    have member := (mem_violations config other).mpr violated
    rw [shape] at member
    rcases List.mem_cons.mp member with rfl | later
    · exact le_rfl
    · exact (rising.1 other later).le
  · rintro ⟨violated, first⟩
    have member := (mem_violations config fault).mpr violated
    cases shape : config.violations with
    | nil => simp [shape] at member
    | cons head behind =>
      rw [shape] at member rising
      rcases List.mem_cons.mp member with rfl | later
      · rfl
      · have head_first := first head ((mem_violations config head).mp (by simp [shape]))
        have := (List.pairwise_cons.mp rising).1 fault later
        omega

end Config

variable {α : Type}

/-- Admission is exact. An enemy is made from a record exactly if its eight
magnitudes are finite and not below zero, its tolerance is finite and positive, and
its offset and its waypoints are finite; otherwise the first violation is reported.
A text is refused for the first violation of the record that it spells, and what it
is read as is a record of which an enemy can be made. Of all bit patterns the tests
let pass those of the numbers without a sign bit, and the negative zero as a
magnitude. -/
theorem admission_is_exact (agent : α) (config : Config) :
    ((∃ brain, Brain.create agent config = .ok brain) ↔ config.Sound) ∧
      (∀ brain, Brain.create agent config = .ok brain →
        brain.agent = agent ∧ brain.config = config) ∧
      (∀ fault, Brain.create agent config = .error fault ↔ config.FirstFault fault) ∧
      (∀ text, Config.ofYaml text = .ok config →
        ∃ brain, Brain.create agent config = .ok brain) ∧
      (∀ text, Config.read? text = some config → ∀ fault,
        Config.ofYaml text = .error (.invalid fault) ↔ config.FirstFault fault) ∧
      (∀ x : Float32, x.isFinite = true ∧ ¬ x < 0 ↔
        place x < 0x7F800000 ∨ place x = 0x80000000) ∧
      (∀ x : Float32, x.isFinite = true ∧ 0 < x ↔ 0 < place x ∧ place x < 0x7F800000) ∧
      ∀ x : Float32, x.isFinite = true ↔ place x % 0x80000000 < 0x7F800000 := by
  have created : (∃ brain, Brain.create agent config = .ok brain) ↔ config.fault? = none := by
    unfold Brain.create
    cases config.fault? <;> simp
  refine ⟨created.trans (Config.sound_iff config), ?_, ?_, ?_, ?_, fun _ => nonneg_iff_pattern,
    fun _ => positive_iff_pattern, fun _ => finite_iff_pattern⟩
  · intro brain made
    unfold Brain.create at made
    split at made
    · cases made
    · cases made
      exact ⟨rfl, rfl⟩
  · intro fault
    rw [← Config.fault_eq_some_iff]
    unfold Brain.create
    cases config.fault? <;> simp
  · intro text read
    rw [created]
    unfold Config.ofYaml at read
    split at read
    · cases read
    · split at read
      · cases read
      · next accepted =>
        cases read
        exact accepted
  · intro text read fault
    rw [← Config.fault_eq_some_iff, Config.ofYaml, read]
    dsimp only
    cases config.fault? <;> simp

/-- Of two negative settings the first one is reported, and a negative zero passes. -/
theorem negative_speed_is_reported :
    let config : Config := { chaseSpeed := -3, stunDuration := -1 }
    let still : Config := { attackRadius := -0.0 }
    Config.read? config.toYaml = some config ∧
      config.FirstFault (.magnitude .chaseSpeed (-3)) ∧
      Config.ofYaml config.toYaml = .error (.invalid (.magnitude .chaseSpeed (-3))) ∧
      still.Sound ∧ ∃ brain, Brain.create () still = .ok brain := by
  intro config still
  have first : config.FirstFault (.magnitude .chaseSpeed (-3)) :=
    (Config.fault_eq_some_iff config _).mp (by decide +kernel)
  have sound : still.Sound := (Config.sound_iff still).mp (by decide +kernel)
  have read : Config.read? config.toYaml = _ := read_toYaml config
  rw [(Config.mapNumbers_eq_iff drift config).mpr (by decide +kernel)] at read
  obtain ⟨-, -, -, -, refused, -⟩ := admission_is_exact () config
  obtain ⟨made, -⟩ := admission_is_exact () still
  exact ⟨read, first, (refused config.toYaml read _).mpr first, sound, made.mpr sound⟩

end Sentry.Enemy
