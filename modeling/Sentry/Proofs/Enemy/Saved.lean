import Sentry.Proofs.Enemy.Records
import Sentry.Proofs.Enemy.Settings
import Sentry.Proofs.Yaml.Documents

/-! Saved records. The text of a record is a mapping of thirteen entries, and
reading it gives the record back, up to the drift of its numbers. So a record is
refused after it was saved exactly if it was refused before. -/
namespace Sentry.Enemy
open Yaml (Phrase Name Content Entry Node Document)

/-! ## Words -/

theorem part_of_number {c : Char} (part : Layout.IsPart c) : Yaml.isWordPart c = true := by
  rcases part with digit | rfl | rfl | rfl
  · simp [Yaml.isWordPart, Char.isAlphanum, digit]
  all_goals rfl

/-- A number behind its sign is a word. -/
theorem signed_is_word (sign : Float.Model.UnpackedFloat.Sign) {text : List Char}
    (digital : Layout.Digital text) : Yaml.IsWord (Layout.number.signed sign text) := by
  have parts : ∀ c ∈ text, Yaml.isWordPart c = true :=
    fun c member => part_of_number (digital.2 c member)
  obtain ⟨c, rest, rfl, digit⟩ := digital_cons digital
  cases sign with
  | positive =>
    refine ⟨parts, List.cons_ne_nil _ _, ?_⟩
    rintro same
    cases same
    cases digit
  | negative =>
    exact ⟨List.forall_mem_cons.mpr ⟨rfl, parts⟩, List.cons_ne_nil _ _,
      by simp [Layout.number.signed]⟩

/-- The text of any number is a word, also that of an infinity or of a NaN. -/
theorem single_is_word (x : Float32) : Yaml.IsWord (fileLayout.single x).toList := by
  rw [Layout.single, String.toList_ofList]
  cases x.toModel.unpack with
  | notANumber => decide
  | infinity sign => cases sign <;> decide
  | zero sign => cases sign <;> decide
  | finite sign m e pos =>
    have digital := Layout.digital_decimal fileLayout
      ((Span.ofBinary .binary32 m e).shortest fileLayout.tie)
    exact signed_is_word sign digital

def numberWord (x : Float32) : Phrase :=
  ⟨fileLayout.single x, Yaml.word_phrase (single_is_word x)⟩

theorem natural_is_word (n : Nat) : Yaml.IsWord (toString n).toList := by
  have digital := Layout.digital_of_digits (Numeral.allDigits_toDigits n) Nat.toDigits_ne_nil
  rw [show (toString n).toList = Nat.toDigits 10 n from Nat.toList_repr]
  exact signed_is_word .positive digital

def naturalWord (n : UInt32) : Phrase :=
  ⟨toString n.toNat, Yaml.word_phrase (natural_is_word n.toNat)⟩

/-! ## Entries -/

def numberEntry (name : Name) (x : Float32) : Entry :=
  ⟨name, .phrase (numberWord x)⟩

def naturalEntry (name : Name) (n : UInt32) : Entry :=
  ⟨name, .phrase (naturalWord n)⟩

/-- A name of a setting. -/
def settingName (text : String)
    (fits : Yaml.isPhrase text.toList = true ∧ Yaml.byteCount text.toList ≤ Yaml.Lexer.keyLimit ∧
      Yaml.isMarker (text.toList ++ [':']) = false := by decide) : Name :=
  ⟨⟨text, fits.1⟩, fits.2.1, fits.2.2⟩

/-- Two coordinates, each with its name. -/
def coordinates (x y : Phrase) : Yaml.Group where
  first := ⟨settingName "x", x⟩
  others := [⟨settingName "y", y⟩]

def pointGroup (point : Vec) : Yaml.Group :=
  coordinates (numberWord point.x) (numberWord point.y)

/-- The entries of a record, in the order in which they are written. -/
def Config.entries (config : Config) : List Entry :=
  [numberEntry (settingName "attack_range") config.attackRange,
    numberEntry (settingName "detection_range") config.detectionRange,
    numberEntry (settingName "patrol_speed") config.patrolSpeed,
    numberEntry (settingName "chase_speed") config.chaseSpeed,
    numberEntry (settingName "waypoint_tolerance") config.waypointTolerance,
    numberEntry (settingName "attack_windup_seconds") config.attackWindup,
    numberEntry (settingName "attack_cooldown_seconds") config.attackCooldown,
    naturalEntry (settingName "attack_damage") config.attackDamage,
    numberEntry (settingName "attack_radius") config.attackRadius,
    ⟨settingName "attack_offset", .group (pointGroup config.attackOffset)⟩,
    numberEntry (settingName "stun_seconds") config.stunDuration,
    naturalEntry (settingName "target_layer") config.targetLayer.bits,
    ⟨settingName "patrol_points", .groups (config.route.map pointGroup)⟩]

theorem line_chars (key value : String) :
    (Config.line key value).toList = key.toList ++ ':' :: ' ' :: (value.toList ++ ['\n']) := by
  simp [Config.line]

theorem pointLines_item (point : Vec) :
    (Config.pointLines point).toList = (pointGroup point).item := by
  have dash : "- x".toList = '-' :: ' ' :: "x".toList := rfl
  have blanks : "  y".toList = ' ' :: ' ' :: "y".toList := rfl
  rw [Config.pointLines, String.toList_append, Config.numberLine, Config.numberLine, line_chars,
    line_chars, dash, blanks]
  simp [Yaml.Group.item, Yaml.Group.lines, pointGroup, coordinates, Yaml.Field.line,
    Yaml.Field.indented, Phrase.chars, settingName, numberWord]

theorem routeLines_entry (route : List Vec) :
    (Config.routeLines route).toList =
      Entry.lines ⟨settingName "patrol_points", .groups (route.map pointGroup)⟩ := by
  cases route with
  | nil => rfl
  | cons point route =>
    have head : "patrol_points:\n".toList = "patrol_points".toList ++ [':', '\n'] := rfl
    rw [Config.routeLines, String.toList_append, String.toList_join, head, List.flatMap_map]
    · simp only [pointLines_item]
      rw [Entry.lines, List.map_cons, Content.lines, ← List.map_cons, List.flatMap_map,
        List.append_assoc]
      · rfl
      · exact List.cons_ne_nil _ _
    · exact List.cons_ne_nil _ _

theorem toYaml_entries (config : Config) :
    config.toYaml = String.ofList (config.entries.flatMap Entry.lines) := by
  have head : "attack_offset:\n".toList = "attack_offset".toList ++ [':', '\n'] := rfl
  have first : "  x".toList = ' ' :: ' ' :: "x".toList := rfl
  have second : "  y".toList = ' ' :: ' ' :: "y".toList := rfl
  rw [← String.toList_inj, String.toList_ofList]
  simp only [Config.toYaml, String.toList_append, Config.numberLine, line_chars, routeLines_entry,
    head, first, second, Config.entries, List.flatMap_cons, List.flatMap_nil]
  simp only [Entry.lines, numberEntry, naturalEntry, Content.lines, Yaml.Group.lines, pointGroup,
    coordinates, Phrase.chars, settingName, numberWord, naturalWord, Yaml.Field.line,
    Yaml.Field.indented, List.flatMap_cons, List.flatMap_nil]
  simp only [List.append_assoc, List.cons_append, List.append_nil, List.nil_append]

/-! ## Reading -/

section
variable (d : Document)

theorem number_word (x : Float32) : number? d (numberWord x).node = some (drift x) :=
  reread x

theorem word_natural (n : UInt32) : word? d (naturalWord n).node = some n := by
  have text : d.valueText? "tag:yaml.org,2002:int" (naturalWord n).node =
      some (toString n.toNat) := rfl
  rw [word?, text, Option.bind_some, reread_natural, Option.filter_some,
    if_pos (by simpa using n.toNat_lt), Option.map_some, UInt32.ofNat_toNat]

theorem vec_coordinates {x y : Phrase} {a b : Float32} (first : number? d x.node = some a)
    (second : number? d y.node = some b) : vec? d (coordinates x y).node = some ⟨a, b⟩ := by
  let fields := (coordinates x y).fields.map fun field => (field.name.text, field.value.node)
  have once (name : String) : (fields.map Prod.fst).count name ≤ 1 := by
    refine List.nodup_iff_count_le_one.mp ?_ name
    change ["x", "y"].Nodup
    decide
  have first : required? (number? d) fields "x" = some a :=
    (required_of_once (once _) List.mem_cons_self).trans first
  have second : required? (number? d) fields "y" = some b :=
    (required_of_once (once _) (List.mem_cons_of_mem _ List.mem_cons_self)).trans second
  rw [vec?, Document.fields_group, Option.bind_some, first, second]
  rfl

theorem vec_group (point : Vec) : vec? d (pointGroup point).node = some (point.map drift) :=
  vec_coordinates d (number_word d point.x) (number_word d point.y)

/-- A list of points is read point by point. -/
theorem route_items {α : Type} {group : α → Yaml.Group} {value : α → Vec} {items : List α}
    (each : ∀ item ∈ items, vec? d (group item).node = some (value item)) :
    route? d (Content.groups (items.map group)).node = some (items.map value) := by
  rw [route?, Document.items_groups, Option.bind_some, List.map_map, List.mapM_map]
  induction items with
  | nil => rfl
  | cons item items ih =>
    rw [List.forall_mem_cons] at each
    rw [List.mapM_cons, Function.comp_apply, Function.comp_apply, each.1, ih each.2]
    rfl

theorem route_groups (route : List Vec) :
    route? d (Content.groups (route.map pointGroup)).node = some (route.map (Vec.map drift)) :=
  route_items d fun point _ => vec_group d point

end

/-! ## Aliases -/

section
variable (d : Document)

theorem foldr_zeros {α : Type} {f : α → Nat} {items : List α} (zeros : ∀ item ∈ items, f item = 0) :
    (items.map f).foldr (· + ·) 0 = 0 := by
  induction items with
  | nil => rfl
  | cons item items ih =>
    rw [List.forall_mem_cons] at zeros
    rw [List.map_cons, List.foldr_cons, zeros.1, ih zeros.2]

theorem vecDetours_content (content : Content) : vecDetours d content.node = 0 := by
  cases content with
  | phrase value => rfl
  | groups items => cases items <;> rfl
  | group fields =>
    change 0 + ((fields.fields.map Yaml.Field.pair).map _).foldr (· + ·) 0 = 0
    rw [List.map_map, Nat.zero_add]
    refine foldr_zeros fun field _ => ?_
    change 0 + ((some _).map fun name => if ["x", "y"].contains name then 0 else 0).getD 0 = 0
    simp

theorem routeDetours_content (content : Content) : routeDetours d content.node = 0 := by
  cases content with
  | phrase value => rfl
  | group fields => rfl
  | groups items =>
    change 0 + ((items.map Yaml.Group.node).map _).foldr (· + ·) 0 = 0
    rw [List.map_map, Nat.zero_add]
    exact foldr_zeros fun group _ => vecDetours_content d (.group group)

/-- Entries hold no aliases. -/
theorem configDetours_entries (entries : List Entry) :
    configDetours (.ofRoot (.mapping none (entries.map Entry.pair))) = 0 := by
  change 0 + ((entries.map Entry.pair).map _).foldr (· + ·) 0 = 0
  rw [List.map_map, Nat.zero_add]
  refine foldr_zeros fun entry _ => ?_
  have scalar : entry.content.node.detours = 0 := by
    cases entry.content <;> rfl
  change 0 + settingDetours _ entry.name.text entry.content.node = 0
  rw [settingDetours, vecDetours_content, routeDetours_content, scalar]
  simp

end

/-- A text of entries, of which there is at least one, is read entry by entry. -/
theorem read_entries (first : Entry) (others : List Entry) :
    Config.read? (String.ofList ((first :: others).flatMap Entry.lines)) =
      config? (.ofRoot (.mapping none ((first :: others).map Entry.pair))) := by
  have allowed : Document.allows (.ofRoot (.mapping none ((first :: others).map Entry.pair)))
      (configDetours (.ofRoot (.mapping none ((first :: others).map Entry.pair)))) = true := by
    rw [configDetours_entries]
    simp [Document.allows]
  rw [Config.read?, Yaml.parse_entries, Option.filter_some, if_pos allowed, Option.bind_some]

/-! ## Records -/

theorem entries_distinct (config : Config) :
    ((config.entries.map fun entry =>
      (entry.name.text, entry.content.node)).map Prod.fst).Nodup := by
  change ["attack_range", "detection_range", "patrol_speed", "chase_speed", "waypoint_tolerance",
    "attack_windup_seconds", "attack_cooldown_seconds", "attack_damage", "attack_radius",
    "attack_offset", "stun_seconds", "target_layer", "patrol_points"].Nodup
  decide

/-- An entry of a record is found under its name. -/
theorem override_entry {β : Type} {config : Config} (i : Nat) {entry : Entry}
    (here : config.entries[i]? = some entry) (read : Node → Option β) (standard : β) :
    override? read (config.entries.map fun entry => (entry.name.text, entry.content.node))
      entry.name.text standard = read entry.content.node :=
  override_of_once (List.nodup_iff_count_le_one.mp (entries_distinct config) _)
    (List.mem_map.mpr ⟨entry, List.mem_of_getElem? here, rfl⟩)

/-- The entries of a record spell the record, up to the drift of its numbers. -/
theorem config_entries (config : Config) :
    config? (.ofRoot (.mapping none (config.entries.map Entry.pair))) =
      some (config.mapNumbers drift) := by
  let d : Document := .ofRoot (.mapping none (config.entries.map Entry.pair))
  let fields := config.entries.map fun entry => (entry.name.text, entry.content.node)
  have number (i : Nat) {name : String} {fits} {x : Float32} (standard : Float32)
      (here : config.entries[i]? = some (numberEntry (settingName name fits) x)) :
      override? (number? d) fields name standard = some (drift x) :=
    (override_entry i here (number? d) standard).trans (number_word d x)
  have word (i : Nat) {name : String} {fits} {n : UInt32} (standard : UInt32)
      (here : config.entries[i]? = some (naturalEntry (settingName name fits) n)) :
      override? (word? d) fields name standard = some n :=
    (override_entry i here (word? d) standard).trans (word_natural d n)
  have offset (standard : Vec) : override? (vec? d) fields "attack_offset" standard =
      some (config.attackOffset.map drift) :=
    (override_entry 9 rfl (vec? d) standard).trans (vec_group d config.attackOffset)
  have route (standard : List Vec) : override? (route? d) fields "patrol_points" standard =
      some (config.route.map (Vec.map drift)) :=
    (override_entry 12 rfl (route? d) standard).trans (route_groups d config.route)
  have read : d.fields? d.root = some fields := Document.fields_entries d config.entries
  refine (config_iff d _).mpr ⟨fields, read, fun setting => ?_⟩
  cases setting with
  | magnitude setting =>
    change override? (number? d) fields setting.key _ =
      some (setting.value (config.mapNumbers drift))
    rw [Config.value_mapNumbers]
    cases setting with
    | attackRange => exact number 0 _ rfl
    | detectionRange => exact number 1 _ rfl
    | patrolSpeed => exact number 2 _ rfl
    | chaseSpeed => exact number 3 _ rfl
    | attackWindup => exact number 5 _ rfl
    | attackCooldown => exact number 6 _ rfl
    | attackRadius => exact number 8 _ rfl
    | stunDuration => exact number 10 _ rfl
  | tolerance => exact number 4 _ rfl
  | damage => exact word 7 _ rfl
  | offset => exact offset _
  | layer => exact word 11 _ rfl
  | route => exact route _

/-- What is read from the text of a record, whether it is valid or not. -/
theorem read_toYaml (config : Config) :
    Config.read? config.toYaml = some (config.mapNumbers drift) := by
  rw [toYaml_entries, ← config_entries config]
  exact read_entries _ _

/-- An accepted record is read from its own text, up to the drift of its numbers. -/
theorem ofYaml_toYaml {config : Config} (accepted : config.fault? = none) :
    Config.ofYaml config.toYaml = .ok (config.mapNumbers drift) := by
  rw [Config.ofYaml, read_toYaml config]
  simp only [Config.fault_mapNumbers drift_tests, accepted, Option.map_none]

/-- An accepted record that is saved can be loaded. Damage, layer and the order of
the waypoints are kept, and so are all numbers but one and its negative. -/
theorem saved_record_is_loaded {config : Config} (accepted : config.fault? = none) :
    Config.ofYaml config.toYaml = .ok (config.mapNumbers drift) ∧
      (Config.ofYaml config.toYaml = .ok config ↔
        ∀ x ∈ config.numbers, x.toBits ≠ 0x15ae43fd ∧ x.toBits ≠ 0x95ae43fd) := by
  have loaded := ofYaml_toYaml accepted
  refine ⟨loaded, ?_⟩
  rw [loaded, Except.ok.injEq, Config.mapNumbers_eq_iff]
  simp only [drift_eq_iff, stray_iff, not_or]

theorem patrol_is_loaded :
    let config : Config :=
      { attackOffset := ⟨-0.1, 0⟩, attackDamage := 4294967295, route := [⟨-3.3, 0⟩, ⟨1e30, 7⟩] }
    config.fault? = none ∧ Config.ofYaml config.toYaml = .ok config := by
  intro config
  have accepted : config.fault? = none := by decide +kernel
  exact ⟨accepted, (saved_record_is_loaded accepted).2.mpr (by decide +kernel)⟩

/-- An attack range that comes back as the next larger number. -/
theorem loaded_range_drifts :
    let config : Config := { attackRange := .ofBits 0x15ae43fd }
    config.fault? = none ∧
      Config.ofYaml config.toYaml = .ok { config with attackRange := .ofBits 0x15ae43fe } ∧
      Config.ofYaml config.toYaml ≠ .ok config := by
  intro config
  have accepted : config.fault? = none := by decide +kernel
  have drifts : config.mapNumbers drift = { config with attackRange := .ofBits 0x15ae43fe } := by
    decide +kernel
  have loaded := ofYaml_toYaml accepted
  rw [drifts] at loaded
  refine ⟨accepted, loaded, ?_⟩
  rw [loaded, Ne, Except.ok.injEq]
  decide +kernel

/-! ## Records that are refused -/

/-- Two violations of one kind that name the same setting or the same waypoint. What
the value is does not matter. -/
inductive ConfigFault.Alike : ConfigFault → ConfigFault → Prop
  | magnitude (setting : Magnitude) (value other : Float32) :
    Alike (.magnitude setting value) (.magnitude setting other)
  | tolerance (value other : Float32) : Alike (.tolerance value) (.tolerance other)
  | offset : Alike .offset .offset
  | waypoint (index : ℕ) : Alike (.waypoint index) (.waypoint index)

theorem ConfigFault.alike_map (f : Float32 → Float32) (fault : ConfigFault) :
    fault.Alike (fault.map f) := by
  cases fault with
  | magnitude setting value => exact .magnitude setting value (f value)
  | tolerance value => exact .tolerance value (f value)
  | offset => exact .offset
  | waypoint index => exact .waypoint index

/-- A record that is refused cannot be made good by saving it. Its text is read, and
the record that is read is refused for the same setting or the same waypoint; the
value that is reported has drifted like any other. -/
theorem refusal_survives_saving {config : Config} {fault : ConfigFault}
    (refused : config.fault? = some fault) :
    Config.ofYaml config.toYaml = .error (.invalid (fault.map drift)) ∧
      fault.Alike (fault.map drift) := by
  refine ⟨?_, ConfigFault.alike_map drift fault⟩
  rw [Config.ofYaml, read_toYaml config]
  simp only [Config.fault_mapNumbers drift_tests, refused, Option.map_some]

/-- The smallest negative speed comes before a tolerance of zero, and a waypoint that
is nowhere is found behind one that is somewhere. -/
theorem bad_records_stay_bad :
    let backward : Config := { chaseSpeed := .ofBits 0x80000001, waypointTolerance := 0 }
    let lost : Config := { route := [⟨-1, 2⟩, ⟨.ofBits 0x7FC00000, .ofBits 0xFF800000⟩] }
    backward.fault? = some (.magnitude .chaseSpeed (.ofBits 0x80000001)) ∧
      Config.ofYaml backward.toYaml =
        .error (.invalid (.magnitude .chaseSpeed (.ofBits 0x80000001))) ∧
      lost.fault? = some (.waypoint 1) ∧
      Config.ofYaml lost.toYaml = .error (.invalid (.waypoint 1)) := by
  intro backward lost
  have speed : backward.fault? = some (.magnitude .chaseSpeed (.ofBits 0x80000001)) := by
    decide +kernel
  have waypoint : lost.fault? = some (.waypoint 1) := by decide +kernel
  have still : drift (.ofBits 0x80000001) = .ofBits 0x80000001 := by decide +kernel
  have again := (refusal_survives_saving speed).1
  rw [ConfigFault.map, still] at again
  exact ⟨speed, again, waypoint, (refusal_survives_saving waypoint).1⟩

end Sentry.Enemy
