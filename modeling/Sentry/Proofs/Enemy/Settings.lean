import Mathlib
import Sentry.Enemy.ConfigFile

/-! Settings by name. Each of the thirteen settings has a name, a kind and a place in
the record; a document spells a record exactly if each name, read with its kind,
gives what stands in its place. -/
namespace Sentry.Enemy
open Yaml (Document Node)

/-- What a setting can be. -/
inductive Kind where
  | number
  | natural
  | point
  | route

namespace Kind

def Value : Kind → Type
  | .number => Float32
  | .natural => UInt32
  | .point => Vec
  | .route => List Vec

instance : (kind : Kind) → DecidableEq kind.Value
  | .number => inferInstanceAs (DecidableEq Float32)
  | .natural => inferInstanceAs (DecidableEq UInt32)
  | .point => inferInstanceAs (DecidableEq Vec)
  | .route => inferInstanceAs (DecidableEq (List Vec))

def read? (d : Document) : (kind : Kind) → Node → Option kind.Value
  | .number => number? d
  | .natural => word? d
  | .point => vec? d
  | .route => route? d

end Kind

/-- The settings of a record. -/
inductive Setting where
  | magnitude (setting : Magnitude)
  | tolerance
  | damage
  | offset
  | layer
  | route
  deriving DecidableEq

namespace Setting

def key : Setting → String
  | .magnitude setting => setting.key
  | .tolerance => "waypoint_tolerance"
  | .damage => "attack_damage"
  | .offset => "attack_offset"
  | .layer => "target_layer"
  | .route => "patrol_points"

def kind : Setting → Kind
  | .magnitude _ => .number
  | .tolerance => .number
  | .damage => .natural
  | .offset => .point
  | .layer => .natural
  | .route => .route

def value (config : Config) : (setting : Setting) → setting.kind.Value
  | .magnitude setting => setting.value config
  | .tolerance => config.waypointTolerance
  | .damage => config.attackDamage
  | .offset => config.attackOffset
  | .layer => config.targetLayer.bits
  | .route => config.route

/-- The record with given values. -/
def record (values : (setting : Setting) → setting.kind.Value) : Config where
  attackRange := values (.magnitude .attackRange)
  detectionRange := values (.magnitude .detectionRange)
  patrolSpeed := values (.magnitude .patrolSpeed)
  chaseSpeed := values (.magnitude .chaseSpeed)
  waypointTolerance := values .tolerance
  attackWindup := values (.magnitude .attackWindup)
  attackCooldown := values (.magnitude .attackCooldown)
  attackDamage := values .damage
  attackRadius := values (.magnitude .attackRadius)
  attackOffset := values .offset
  stunDuration := values (.magnitude .stunDuration)
  targetLayer := ⟨values .layer⟩
  route := values .route

theorem value_record (values : (setting : Setting) → setting.kind.Value) (setting : Setting) :
    setting.value (record values) = values setting := by
  cases setting with
  | magnitude setting => cases setting <;> rfl
  | _ => rfl

/-- A record is known by its values. -/
theorem eq_of_values {a b : Config} (same : ∀ setting : Setting, setting.value a = setting.value b) :
    a = b :=
  congrArg record (funext same)

theorem key_injective : Function.Injective key := by
  intro a b same
  cases a with
  | magnitude a =>
    cases b with
    | magnitude b => cases a <;> cases b <;> first | rfl | exact absurd same (by decide)
    | _ => cases a <;> exact absurd same (by decide)
  | _ =>
    cases b with
    | magnitude b => cases b <;> exact absurd same (by decide)
    | _ => first | rfl | exact absurd same (by decide)

end Setting

/-! ## Reading -/

section
variable {fields : List (String × Node)} {name : String} {node : Node}

theorem count_names :
    (fields.map Prod.fst).count name = (fields.filter (·.1 == name)).length := by
  rw [List.count, List.countP_map, List.countP_eq_length_filter]
  rfl

/-- A name that stands there once is found. -/
theorem only_of_once (once : (fields.map Prod.fst).count name ≤ 1) (member : (name, node) ∈ fields) :
    only? fields name = some (some node) := by
  have found : (name, node) ∈ fields.filter (·.1 == name) := by simp [member]
  rw [count_names] at once
  obtain ⟨field, single⟩ := List.length_eq_one_iff.mp
    (Nat.le_antisymm once (List.length_pos_of_mem found))
  rw [single, List.mem_singleton] at found
  rw [only?, single, ← found]

theorem only_of_absent (absent : name ∉ fields.map Prod.fst) : only? fields name = some none := by
  have nothing : fields.filter (·.1 == name) = [] := by
    rw [← List.length_eq_zero_iff, ← count_names]
    exact List.count_eq_zero.mpr absent
  rw [only?, nothing]

theorem once_of_only {found : Option Node} (only : only? fields name = some found) :
    (fields.map Prod.fst).count name ≤ 1 := by
  rw [count_names]
  unfold only? at only
  split at only
  · next nothing => simp [nothing]
  · next single => simp [single]
  · cases only

variable {β : Type} {read : Node → Option β} {standard value : β}

theorem override_of_once (once : (fields.map Prod.fst).count name ≤ 1)
    (member : (name, node) ∈ fields) : override? read fields name standard = read node := by
  rw [override?, only_of_once once member]
  rfl

theorem override_of_absent (absent : name ∉ fields.map Prod.fst) :
    override? read fields name standard = some standard := by
  rw [override?, only_of_absent absent]
  rfl

theorem required_of_once (once : (fields.map Prod.fst).count name ≤ 1)
    (member : (name, node) ∈ fields) : required? read fields name = read node := by
  rw [required?, only_of_once once member]
  rfl

/-- A setting is read only if it is listed once or not at all. -/
theorem once_of_override (spelled : override? read fields name standard = some value) :
    (fields.map Prod.fst).count name ≤ 1 := by
  obtain ⟨found, only, -⟩ := Option.bind_eq_some_iff.mp spelled
  exact once_of_only only

/-- What is listed is read, and never filled in. -/
theorem read_of_override (spelled : override? read fields name standard = some value)
    (member : (name, node) ∈ fields) : read node = some value := by
  rw [← spelled]
  exact (override_of_once (once_of_override spelled) member).symm

end

/-- A document spells a record setting by setting. -/
theorem config_iff (d : Document) (config : Config) :
    config? d = some config ↔ ∃ fields, d.fields? d.root = some fields ∧
      ∀ setting : Setting, override? (setting.kind.read? d) fields setting.key (setting.value {}) =
        some (setting.value config) := by
  constructor
  · intro spelled
    obtain ⟨fields, read, spelled⟩ := Option.bind_eq_some_iff.mp spelled
    -- The reader takes the thirteen settings one behind the other.
    iterate 13 obtain ⟨_, _, spelled⟩ := Option.bind_eq_some_iff.mp spelled
    cases spelled
    refine ⟨fields, read, fun setting => ?_⟩
    cases setting with
    | magnitude setting => cases setting <;> assumption
    | _ => assumption
  · rintro ⟨fields, read, each⟩
    refine Option.bind_eq_some_iff.mpr ⟨fields, read, ?_⟩
    refine Option.bind_eq_some_iff.mpr ⟨_, each (.magnitude .attackRange), ?_⟩
    refine Option.bind_eq_some_iff.mpr ⟨_, each (.magnitude .detectionRange), ?_⟩
    refine Option.bind_eq_some_iff.mpr ⟨_, each (.magnitude .patrolSpeed), ?_⟩
    refine Option.bind_eq_some_iff.mpr ⟨_, each (.magnitude .chaseSpeed), ?_⟩
    refine Option.bind_eq_some_iff.mpr ⟨_, each .tolerance, ?_⟩
    refine Option.bind_eq_some_iff.mpr ⟨_, each (.magnitude .attackWindup), ?_⟩
    refine Option.bind_eq_some_iff.mpr ⟨_, each (.magnitude .attackCooldown), ?_⟩
    refine Option.bind_eq_some_iff.mpr ⟨_, each .damage, ?_⟩
    refine Option.bind_eq_some_iff.mpr ⟨_, each (.magnitude .attackRadius), ?_⟩
    refine Option.bind_eq_some_iff.mpr ⟨_, each .offset, ?_⟩
    refine Option.bind_eq_some_iff.mpr ⟨_, each (.magnitude .stunDuration), ?_⟩
    refine Option.bind_eq_some_iff.mpr ⟨_, each .layer, ?_⟩
    refine Option.bind_eq_some_iff.mpr ⟨_, each .route, ?_⟩
    rfl

/-! ## Flaws -/

/-- Both coordinates of a point are given. -/
def HasCoordinates (d : Document) (node : Node) : Prop :=
  ∃ fields, d.fields? node = some fields ∧ "x" ∈ fields.map Prod.fst ∧ "y" ∈ fields.map Prod.fst

/-- A setting stands there twice, or a point lacks a coordinate. -/
inductive Flawed (d : Document) (fields : List (String × Node)) : Prop
  | repeated (setting : Setting) (twice : 2 ≤ (fields.map Prod.fst).count setting.key)
  | offset {node : Node} (listed : (Setting.offset.key, node) ∈ fields)
    (lacks : ¬ HasCoordinates d node)
  | waypoint {node item : Node} {items : List Node} (listed : (Setting.route.key, node) ∈ fields)
    (sequence : d.items? node = some items) (member : item ∈ items) (lacks : ¬ HasCoordinates d item)

theorem name_of_required {β : Type} {read : Node → Option β} {fields : List (String × Node)}
    {name : String} {value : β} (spelled : required? read fields name = some value) :
    name ∈ fields.map Prod.fst := by
  by_contra absent
  rw [required?, only_of_absent absent] at spelled
  cases spelled

theorem coordinates_of_vec {d : Document} {node : Node} {point : Vec}
    (spelled : vec? d node = some point) : HasCoordinates d node := by
  obtain ⟨fields, read, spelled⟩ := Option.bind_eq_some_iff.mp spelled
  obtain ⟨x, first, spelled⟩ := Option.bind_eq_some_iff.mp spelled
  obtain ⟨y, second, -⟩ := Option.bind_eq_some_iff.mp spelled
  exact ⟨fields, read, name_of_required first, name_of_required second⟩

theorem vec_of_route {d : Document} {node item : Node} {items : List Node} {route : List Vec}
    (spelled : route? d node = some route) (sequence : d.items? node = some items)
    (member : item ∈ items) : ∃ point, vec? d item = some point := by
  rw [route?, sequence, Option.bind_some] at spelled
  clear sequence
  induction items generalizing route with
  | nil => cases member
  | cons head items ih =>
    rw [List.mapM_cons] at spelled
    obtain ⟨point, first, spelled⟩ := Option.bind_eq_some_iff.mp spelled
    obtain ⟨others, more, -⟩ := Option.bind_eq_some_iff.mp spelled
    rcases List.mem_cons.mp member with rfl | later
    · exact ⟨point, first⟩
    · exact ih more later

/-- A flawed document spells no record. -/
theorem config_flawed {d : Document} {fields : List (String × Node)}
    (read : d.fields? d.root = some fields) (flawed : Flawed d fields) : config? d = none := by
  cases spelled : config? d with
  | none => rfl
  | some config =>
    obtain ⟨fields', read', each⟩ := (config_iff d config).mp spelled
    obtain rfl : fields' = fields := Option.some.inj (read'.symm.trans read)
    exfalso
    cases flawed with
    | repeated setting twice =>
      have once := once_of_override (each setting)
      omega
    | offset listed lacks =>
      exact lacks (coordinates_of_vec (read_of_override (each .offset) listed))
    | waypoint listed sequence member lacks =>
      obtain ⟨point, spelled⟩ := vec_of_route (read_of_override (each .route) listed) sequence member
      exact lacks (coordinates_of_vec spelled)

end Sentry.Enemy
