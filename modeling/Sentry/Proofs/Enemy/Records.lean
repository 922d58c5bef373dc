import Sentry.Proofs.Enemy.Numbers

/-! Records as tuples of numbers. The test of a record asks something of each of
its numbers apart, so it does not notice a change that no number's test
notices. -/
namespace Sentry

/-- The vector with other coordinates. -/
def Vec.map (f : Float32 → Float32) (v : Vec) : Vec :=
  ⟨f v.x, f v.y⟩

theorem Vec.isFinite_iff (v : Vec) : v.isFinite = true ↔ v.x.isFinite = true ∧ v.y.isFinite = true := by
  rw [Vec.isFinite, Bool.and_eq_true]

theorem Vec.map_eq_iff (f : Float32 → Float32) (v : Vec) : v.map f = v ↔ f v.x = v.x ∧ f v.y = v.y := by
  cases v
  simp [Vec.map]

/-- The violation by another number. -/
def Enemy.ConfigFault.map (f : Float32 → Float32) : ConfigFault → ConfigFault
  | .magnitude setting value => .magnitude setting (f value)
  | .tolerance value => .tolerance (f value)
  | .offset => .offset
  | .waypoint index => .waypoint index

namespace Enemy.Config
open Magnitude (all)

/-- All numbers of a record. -/
def numbers (config : Config) : List Float32 :=
  Magnitude.all.map (Magnitude.value config) ++ [config.waypointTolerance, config.attackOffset.x,
    config.attackOffset.y] ++ config.route.flatMap fun point => [point.x, point.y]

/-- The record with other numbers. -/
def mapNumbers (f : Float32 → Float32) (config : Config) : Config :=
  { config with
    attackRange := f config.attackRange
    detectionRange := f config.detectionRange
    patrolSpeed := f config.patrolSpeed
    chaseSpeed := f config.chaseSpeed
    waypointTolerance := f config.waypointTolerance
    attackWindup := f config.attackWindup
    attackCooldown := f config.attackCooldown
    attackRadius := f config.attackRadius
    attackOffset := config.attackOffset.map f
    stunDuration := f config.stunDuration
    route := config.route.map (Vec.map f) }

theorem mem_magnitudes (setting : Magnitude) : setting ∈ Magnitude.all := by
  cases setting <;> decide

theorem value_mapNumbers (f : Float32 → Float32) (config : Config) (setting : Magnitude) :
    setting.value (config.mapNumbers f) = f (setting.value config) := by
  cases setting <;> rfl

/-- What holds of all numbers of a record, part by part. -/
theorem forall_numbers {p : Float32 → Prop} {config : Config} :
    (∀ x ∈ config.numbers, p x) ↔ (∀ setting : Magnitude, p (setting.value config)) ∧
      p config.waypointTolerance ∧ (p config.attackOffset.x ∧ p config.attackOffset.y) ∧
      ∀ point ∈ config.route, p point.x ∧ p point.y := by
  have magnitudes : (∀ setting ∈ all, p (setting.value config)) ↔
      ∀ setting : Magnitude, p (setting.value config) :=
    ⟨fun each setting => each setting (mem_magnitudes setting), fun each setting _ => each setting⟩
  have nothing : (∀ x ∈ ([] : List Float32), p x) ↔ True := by simp
  simp only [numbers, List.forall_mem_append, List.forall_mem_cons, List.forall_mem_flatMap,
    List.forall_mem_map, magnitudes, nothing, and_true, and_assoc]

theorem mapNumbers_eq_iff (f : Float32 → Float32) (config : Config) :
    config.mapNumbers f = config ↔ ∀ x ∈ config.numbers, f x = x := by
  rw [forall_numbers]
  constructor
  · intro same
    refine ⟨fun setting => ?_, congrArg waypointTolerance same,
      (Vec.map_eq_iff f _).mp (congrArg attackOffset same), ?_⟩
    · rw [← value_mapNumbers f, same]
    · have route : config.route.map (Vec.map f) = config.route.map id := by
        rw [List.map_id]
        exact congrArg Config.route same
      intro point member
      exact (Vec.map_eq_iff f point).mp (List.map_inj_left.mp route point member)
  · rintro ⟨magnitudes, tolerance, offset, route⟩
    have route : config.route.map (Vec.map f) = config.route := by
      rw [List.map_inj_left.mpr fun point member => (Vec.map_eq_iff f point).mpr (route point member)]
      exact List.map_id _
    have offset := (Vec.map_eq_iff f _).mpr offset
    obtain ⟨_, _, _, _, _, _, _, _, _, _, _, _, _⟩ := config
    simp only [mapNumbers, mk.injEq]
    exact ⟨magnitudes .attackRange, magnitudes .detectionRange, magnitudes .patrolSpeed,
      magnitudes .chaseSpeed, tolerance, magnitudes .attackWindup, magnitudes .attackCooldown,
      trivial, magnitudes .attackRadius, offset, magnitudes .stunDuration, trivial, route⟩

/-! ## The test of a record -/

/-- What the test of a record asks of its parts. -/
theorem fault_eq_none_iff (config : Config) :
    config.fault? = none ↔
      (∀ setting : Magnitude, isMagnitude (setting.value config) = true) ∧
        isTolerance config.waypointTolerance = true ∧ config.attackOffset.isFinite = true ∧
        ∀ point ∈ config.route, point.isFinite = true := by
  have magnitudes : config.magnitudeFault? = none ↔
      ∀ setting : Magnitude, isMagnitude (setting.value config) = true := by
    rw [magnitudeFault?, Option.map_eq_none_iff, List.find?_eq_none]
    exact ⟨fun each setting => by simpa using each setting (mem_magnitudes setting),
      fun each setting _ => by simpa using each setting⟩
  have route : (config.route.findIdx? fun point => !point.isFinite).map ConfigFault.waypoint = none ↔
      ∀ point ∈ config.route, point.isFinite = true := by
    rw [Option.map_eq_none_iff, List.findIdx?_eq_none_iff]
    simp only [Bool.not_eq_false']
  simp only [fault?, Option.orElse_eq_orElse, Option.orElse_eq_or, Option.or_eq_none_iff, magnitudes,
    route, ite_eq_left_iff, reduceCtorEq, imp_false, not_not]

/-- The numbers of an accepted record are finite. -/
theorem numbers_finite {config : Config} (accepted : config.fault? = none) :
    ∀ x ∈ config.numbers, x.isFinite = true := by
  obtain ⟨magnitudes, tolerance, offset, route⟩ := (fault_eq_none_iff config).mp accepted
  refine forall_numbers.mpr ⟨fun setting => ?_, ?_, (Vec.isFinite_iff _).mp offset,
    fun point member => (Vec.isFinite_iff _).mp (route point member)⟩
  · have magnitude := magnitudes setting
    rw [isMagnitude, Bool.and_eq_true] at magnitude
    exact magnitude.1
  · rw [isTolerance, Bool.and_eq_true] at tolerance
    exact tolerance.1

/-- Other numbers that pass the same tests leave the first violation where it is. -/
theorem fault_mapNumbers {f : Float32 → Float32}
    (same : ∀ x, (f x).isFinite = x.isFinite ∧ isMagnitude (f x) = isMagnitude x ∧
      isTolerance (f x) = isTolerance x) (config : Config) :
    (config.mapNumbers f).fault? = config.fault?.map (ConfigFault.map f) := by
  have point (v : Vec) : (v.map f).isFinite = v.isFinite := by
    rw [Vec.isFinite, Vec.isFinite, Vec.map, (same v.x).1, (same v.y).1]
  have magnitudes : (config.mapNumbers f).magnitudeFault? =
      config.magnitudeFault?.map (ConfigFault.map f) := by
    simp only [magnitudeFault?, value_mapNumbers, same, Option.map_map]
    rfl
  have tolerance : isTolerance (f config.waypointTolerance) =
      isTolerance config.waypointTolerance := (same _).2.2
  have offset : (config.mapNumbers f).attackOffset.isFinite = config.attackOffset.isFinite :=
    point _
  have route : (config.mapNumbers f).route.findIdx? (fun point => !point.isFinite) =
      config.route.findIdx? fun point => !point.isFinite := by
    change (config.route.map (Vec.map f)).findIdx? _ = _
    rw [List.findIdx?_map]
    congr 1
    funext v
    simp [point]
  have threshold : (config.mapNumbers f).waypointTolerance = f config.waypointTolerance := rfl
  simp only [fault?, Option.orElse_eq_orElse, Option.orElse_eq_or, Option.map_or, magnitudes,
    tolerance, offset, route, threshold, apply_ite (Option.map (ConfigFault.map f)), Option.map_map]
  rfl

end Enemy.Config

end Sentry
