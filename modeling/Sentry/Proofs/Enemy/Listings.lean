import Sentry.Proofs.Enemy.Saved
import Sentry.Proofs.Enemy.Scalars

/-! Files that list some settings. The settings may stand in any order, and between
them may stand names that are no settings. What is listed overrides its default and
nothing else; what is listed twice, or a point that lacks a coordinate, is refused. -/
namespace Sentry.Enemy
open Yaml (Phrase Name Content Entry Node Document)

/-- The text of a point: its coordinates, each with its name. -/
structure PointText where
  x : NumberText
  y : NumberText

namespace PointText

def group (point : PointText) : Yaml.Group :=
  coordinates point.x.phrase point.y.phrase

/-- The point, each coordinate rounded to binary32. -/
def value (point : PointText) : Vec :=
  ⟨narrow point.x.value, narrow point.y.value⟩

end PointText

namespace Kind

/-- What is written for a value. -/
def Text : Kind → Type
  | .number => NumberText
  | .natural => NaturalText
  | .point => PointText
  | .route => List PointText

/-- The value that a text denotes. -/
def denoted : (kind : Kind) → kind.Text → kind.Value
  | .number, text => narrow (NumberText.value text)
  | .natural, text => NaturalText.value text
  | .point, text => PointText.value text
  | .route, text => List.map PointText.value text

def content : (kind : Kind) → kind.Text → Content
  | .number, text => .phrase (NumberText.phrase text)
  | .natural, text => .phrase (NaturalText.phrase text)
  | .point, text => .group (PointText.group text)
  | .route, text => .groups (List.map PointText.group text)

end Kind

/-- The name of a setting in a file. -/
def Setting.name (setting : Setting) : Name :=
  settingName setting.key (by
    cases setting with
    | magnitude setting => cases setting <;> decide
    | _ => decide)

/-- A line of a file, or a few of them: a setting with a text for it, or a name that
is no setting with any plain scalar. -/
inductive Listing where
  | known (setting : Setting) (text : setting.kind.Text)
  | other (name : Name) (value : Phrase) (unknown : ∀ setting : Setting, name.text ≠ setting.key)

namespace Listing

def entry : Listing → Entry
  | .known setting text => ⟨setting.name, setting.kind.content text⟩
  | .other name value _ => ⟨name, .phrase value⟩

/-- The setting that is listed. -/
def setting? : Listing → Option Setting
  | .known setting _ => some setting
  | .other .. => none

end Listing

/-- The text of a file. -/
def entriesText (entries : List Entry) : String :=
  String.ofList (entries.flatMap Entry.lines)

def listingsText (listings : List Listing) : String :=
  entriesText (listings.map Listing.entry)

/-- What is listed is as denoted, and everything else has its default. -/
structure Overrides (listings : List Listing) (config : Config) : Prop where
  listed : ∀ (setting : Setting) (text : setting.kind.Text), .known setting text ∈ listings →
    setting.value config = setting.kind.denoted text
  standard : ∀ setting : Setting, setting ∉ listings.filterMap Listing.setting? →
    setting.value config = setting.value {}

/-! ## Values -/

/-- What is written for a value is read as what it denotes. -/
theorem read_content (d : Document) (kind : Kind) (text : kind.Text) :
    kind.read? d (kind.content text).node = some (kind.denoted text) := by
  have point (point : PointText) : vec? d point.group.node = some point.value :=
    vec_coordinates d (number_text d point.x) (number_text d point.y)
  cases kind with
  | number => exact number_text d text
  | natural => exact word_text d text
  | point => exact point text
  | route => exact route_items d fun item _ => point item

/-! ## Names -/

theorem named_iff (listing : Listing) (setting : Setting) :
    listing.entry.name.text = setting.key ↔ listing.setting? = some setting := by
  cases listing with
  | known other text =>
    change other.key = setting.key ↔ some other = some setting
    rw [Setting.key_injective.eq_iff, Option.some_inj]
  | other name value unknown =>
    change name.text = setting.key ↔ none = some setting
    simp [unknown setting]

variable {listings : List Listing}

/-- A setting is listed as often as its name stands there. -/
theorem count_key (listings : List Listing) (setting : Setting) :
    (listings.map fun listing => listing.entry.name.text).count setting.key =
      (listings.filterMap Listing.setting?).count setting := by
  rw [List.count_filterMap, List.count, List.countP_map]
  refine List.countP_congr fun listing _ => ?_
  rw [Function.comp_apply, beq_iff_eq, beq_iff_eq, named_iff]

/-! ## Reading -/

theorem parse_nothing : Document.parse? "" = some (.ofRoot .empty) := by
  have ends : Yaml.tokens? [] = some [.streamEnd] := Yaml.Lexer.gives_end 0 0 [] true []
  rw [Document.parse?, show "".toList = [] from rfl, ends]
  rfl

/-- A text of entries is read as their names and contents. -/
theorem read_text (entries : List Entry) :
    ∃ d, Document.parse? (entriesText entries) = some d ∧
      d.fields? d.root = some (entries.map fun entry => (entry.name.text, entry.content.node)) ∧
      Config.read? (entriesText entries) = config? d := by
  cases entries with
  | nil =>
    have nothing : entriesText [] = "" := rfl
    have allowed : Document.allows (.ofRoot .empty) (configDetours (.ofRoot .empty)) = true := by
      decide
    refine ⟨.ofRoot .empty, nothing ▸ parse_nothing, rfl, ?_⟩
    rw [nothing, Config.read?, parse_nothing, Option.filter_some, if_pos allowed, Option.bind_some]
  | cons first others =>
    exact ⟨_, Yaml.parse_entries first others, Document.fields_entries _ _, read_entries first others⟩

theorem listed_iff (setting : Setting) :
    setting ∈ listings.filterMap Listing.setting? ↔
      ∃ text, Listing.known setting text ∈ listings := by
  rw [List.mem_filterMap]
  constructor
  · rintro ⟨listing, member, same⟩
    cases listing with
    | known other text =>
      cases same
      exact ⟨text, member⟩
    | other name value unknown => cases same
  · rintro ⟨text, member⟩
    exact ⟨_, member, rfl⟩

section
variable (distinct : (listings.filterMap Listing.setting?).Nodup)
include distinct

/-- Each setting is read: as what is listed for it, or as its default. -/
theorem override_listings (d : Document) (setting : Setting) (standard : setting.kind.Value) :
    ∃ value, override? (setting.kind.read? d) ((listings.map Listing.entry).map fun entry =>
        (entry.name.text, entry.content.node)) setting.key standard = some value ∧
      (∀ text, Listing.known setting text ∈ listings → value = setting.kind.denoted text) ∧
      (setting ∉ listings.filterMap Listing.setting? → value = standard) := by
  let fields := (listings.map Listing.entry).map fun entry => (entry.name.text, entry.content.node)
  have names : fields.map Prod.fst = listings.map fun listing => listing.entry.name.text := by
    simp [fields, Function.comp_def]
  have count : (fields.map Prod.fst).count setting.key =
      (listings.filterMap Listing.setting?).count setting := by
    rw [names, count_key]
  have once : (fields.map Prod.fst).count setting.key ≤ 1 :=
    count ▸ List.nodup_iff_count_le_one.mp distinct setting
  have read (text : setting.kind.Text) (member : Listing.known setting text ∈ listings) :
      override? (setting.kind.read? d) fields setting.key standard =
        some (setting.kind.denoted text) := by
    have field : (setting.key, (setting.kind.content text).node) ∈ fields :=
      List.mem_map.mpr ⟨_, List.mem_map_of_mem member, rfl⟩
    exact (override_of_once once field).trans (read_content d setting.kind text)
  -- Names that are no settings may repeat, so only the count of this one name is known.
  by_cases listed : setting ∈ listings.filterMap Listing.setting?
  · obtain ⟨text, member⟩ := (listed_iff setting).mp listed
    refine ⟨_, read text member, fun other member' => ?_, fun absent => absurd listed absent⟩
    exact Option.some.inj ((read text member).symm.trans (read other member'))
  · have absent : setting.key ∉ fields.map Prod.fst := by
      rw [← List.count_eq_zero, count]
      exact List.count_eq_zero.mpr listed
    refine ⟨standard, override_of_absent absent, fun text member => ?_, fun _ => rfl⟩
    exact absurd ((listed_iff setting).mpr ⟨text, member⟩) listed

/-- The text of listings spells the record that they override the defaults to. -/
theorem read_listings :
    ∃ config, Config.read? (listingsText listings) = some config ∧ Overrides listings config := by
  obtain ⟨d, -, fields, read⟩ := read_text (listings.map Listing.entry)
  choose values each listed standard using fun setting : Setting =>
    override_listings distinct d setting (setting.value {})
  refine ⟨Setting.record values, ?_, ?_, ?_⟩
  · refine read.trans ((config_iff d _).mpr ⟨_, fields, fun setting => ?_⟩)
    rw [each, Setting.value_record]
  · intro setting text member
    rw [Setting.value_record, listed setting text member]
  · intro setting absent
    rw [Setting.value_record, standard setting absent]

end

/-- Where the same settings are listed with the same texts, the same record is
spelled. -/
theorem Overrides.unique {others : List Listing} {a b : Config} (first : Overrides listings a)
    (second : Overrides others b) (same : ∀ (setting : Setting) (text : setting.kind.Text),
      .known setting text ∈ others ↔ .known setting text ∈ listings) : a = b := by
  refine Setting.eq_of_values fun setting => ?_
  by_cases listed : setting ∈ listings.filterMap Listing.setting?
  · obtain ⟨text, member⟩ := (listed_iff setting).mp listed
    rw [first.listed setting text member, second.listed setting text ((same setting text).mpr member)]
  · have absent : setting ∉ others.filterMap Listing.setting? := by
      intro other
      obtain ⟨text, member⟩ := (listed_iff setting).mp other
      exact listed ((listed_iff setting).mpr ⟨text, (same setting text).mp member⟩)
    rw [first.standard setting listed, second.standard setting absent]

/-! ## Flaws -/

def groupNames (group : Yaml.Group) : List String :=
  group.fields.map fun field => field.name.text

/-- Entries that list a setting twice, or a point that lacks a coordinate. What else
they hold does not matter. -/
inductive FlawedEntries (entries : List Entry) : Prop
  | repeated (setting : Setting)
    (twice : 2 ≤ (entries.map fun entry => entry.name.text).count setting.key)
  | offset {name : Name} {group : Yaml.Group} (listed : ⟨name, .group group⟩ ∈ entries)
    (named : name.text = Setting.offset.key)
    (lacks : "x" ∉ groupNames group ∨ "y" ∉ groupNames group)
  | waypoint {name : Name} {groups : List Yaml.Group} {group : Yaml.Group}
    (listed : ⟨name, .groups groups⟩ ∈ entries) (named : name.text = Setting.route.key)
    (member : group ∈ groups) (lacks : "x" ∉ groupNames group ∨ "y" ∉ groupNames group)

theorem group_lacks (d : Document) {group : Yaml.Group}
    (lacks : "x" ∉ groupNames group ∨ "y" ∉ groupNames group) : ¬ HasCoordinates d group.node := by
  rintro ⟨fields, read, x, y⟩
  rw [Document.fields_group, Option.some_inj] at read
  have names : fields.map Prod.fst = groupNames group := by
    rw [← read, List.map_map]
    rfl
  rw [names] at x y
  exact lacks.elim (· x) (· y)

theorem flawed_entries (d : Document) {entries : List Entry} (flawed : FlawedEntries entries) :
    Flawed d (entries.map fun entry => (entry.name.text, entry.content.node)) := by
  have there {name : Name} {content : Content} {setting : Setting} (listed : ⟨name, content⟩ ∈ entries)
      (named : name.text = setting.key) : (setting.key, content.node) ∈
        entries.map fun entry => (entry.name.text, entry.content.node) :=
    List.mem_map.mpr ⟨_, listed, by rw [named]⟩
  cases flawed with
  | repeated setting twice =>
    refine .repeated setting ?_
    rwa [List.map_map]
  | offset listed named lacks => exact .offset (there listed named) (group_lacks d lacks)
  | @waypoint name groups group listed named member lacks =>
    exact .waypoint (there listed named) (Document.items_groups d groups) (List.mem_map_of_mem member)
      (group_lacks d lacks)

/-- A text of which the document is flawed spells no record. -/
theorem refused_flawed {text : String} {d : Document} {fields : List (String × Node)}
    (parsed : Document.parse? text = some d) (read : d.fields? d.root = some fields)
    (flawed : Flawed d fields) : Config.ofYaml text = .error .malformed := by
  have refused : Config.read? text = none := by
    rw [Config.read?, parsed]
    by_cases allowed : d.allows (configDetours d) = true
    · rw [Option.filter_some, if_pos allowed, Option.bind_some, config_flawed read flawed]
    · rw [Option.filter_some, if_neg allowed, Option.bind_none]
  rw [Config.ofYaml, refused]

/-- A file overrides what it lists. Whichever settings are listed, in whichever order
and with whichever other names between them, the record that the text spells has the
values that are listed, and the defaults elsewhere; it is what the text is read as if
it has no violation, and otherwise its violation is reported. Order and other names
are immaterial. A text that lists a setting twice, or a point without one of its
coordinates, is malformed, and nothing is filled in. -/
theorem listed_settings_override_defaults (listings : List Listing)
    (distinct : (listings.filterMap Listing.setting?).Nodup) :
    (∃ config, Config.read? (listingsText listings) = some config ∧ Overrides listings config ∧
      (config.fault? = none → Config.ofYaml (listingsText listings) = .ok config) ∧
      ∀ fault, config.fault? = some fault →
        Config.ofYaml (listingsText listings) = .error (.invalid fault)) ∧
    (∀ others : List Listing, (others.filterMap Listing.setting?).Nodup →
      (∀ (setting : Setting) (text : setting.kind.Text),
        .known setting text ∈ others ↔ .known setting text ∈ listings) →
      Config.ofYaml (listingsText others) = Config.ofYaml (listingsText listings)) ∧
    (∀ entries, FlawedEntries entries →
      Config.ofYaml (entriesText entries) = .error .malformed) ∧
    ∀ text d fields, Document.parse? text = some d → d.fields? d.root = some fields →
      Flawed d fields → Config.ofYaml text = .error .malformed := by
  obtain ⟨config, read, overrides⟩ := read_listings distinct
  refine ⟨⟨config, read, overrides, ?_, ?_⟩, ?_, ?_, fun _ _ _ => refused_flawed⟩
  · intro accepted
    simp only [Config.ofYaml, read, accepted]
  · intro fault found
    simp only [Config.ofYaml, read, found]
  · intro others distinct' same
    obtain ⟨other, read', overrides'⟩ := read_listings distinct'
    rw [Config.ofYaml, Config.ofYaml, read, read', overrides.unique overrides' same]
  · intro entries flawed
    obtain ⟨d, parsed, fields, -⟩ := read_text entries
    exact refused_flawed parsed fields (flawed_entries d flawed)

/-- A route, a layer and a range, and a note that is no setting. -/
def raidListings : List Listing :=
  [.other (settingName "spawn note") ⟨"wave 2 - gate:3", by decide +kernel⟩ (by
      rintro (setting | _ | _ | _ | _ | _)
      · cases setting <;> decide
      all_goals decide),
    .known .route [
      ⟨.ofLiteral ⟨.none, ['1'], none, none, by decide, by decide⟩ (by decide +kernel),
        .ofLiteral ⟨.minus, ['2', '5'], none, some ⟨'e', .minus, ['1'], .inl rfl, by decide,
          by decide⟩, by decide, by decide⟩ (by decide +kernel)⟩],
    .known .layer ⟨"+0x5", 5, @DenotesNatural.based true 'x' 16 (.head _) ['5'] [5] (.cons rfl .nil)
      (by decide)⟩,
    .known (.magnitude .attackRange) (.ofLiteral
      ⟨.none, ['2'], some ['5'], none, by decide, by decide⟩ (by decide +kernel))]

/-- An offset of which the second coordinate is left out. -/
def flatOffset : Entry :=
  let whole := coordinates ⟨"2.5", by decide⟩ ⟨"0", by decide⟩
  ⟨Setting.offset.name, .group { whole with others := [] }⟩

theorem raid_overrides_defaults :
    Config.ofYaml ("spawn note: wave 2 - gate:3\npatrol_points:\n- x: 1\n  y: -25e-1\n" ++
        "target_layer: +0x5\nattack_range: 2.5\n") =
      .ok { attackRange := 2.5, targetLayer := ⟨5⟩, route := [⟨1, -2.5⟩] } ∧
    Config.ofYaml "attack_offset:\n  x: 2.5\n" = .error .malformed := by
  have listed : listingsText raidListings = "spawn note: wave 2 - gate:3\npatrol_points:\n- x: 1\n" ++
      "  y: -25e-1\n" ++ "target_layer: +0x5\nattack_range: 2.5\n" := by
    decide +kernel
  have flat : entriesText [flatOffset] = "attack_offset:\n  x: 2.5\n" := by decide +kernel
  have distinct : (raidListings.filterMap Listing.setting?).Nodup := by decide
  obtain ⟨⟨config, -, overrides, accepted, -⟩, -, refused, -⟩ :=
    listed_settings_override_defaults raidListings distinct
  have same : config = { attackRange := 2.5, targetLayer := ⟨5⟩, route := [⟨1, -2.5⟩] } := by
    refine Setting.eq_of_values fun setting => ?_
    cases setting with
    | route => exact (overrides.listed .route _ (.tail _ (.head _))).trans (by decide +kernel)
    | layer => exact (overrides.listed .layer _ (.tail _ (.tail _ (.head _)))).trans (by decide +kernel)
    | magnitude setting =>
      cases setting with
      | attackRange =>
        exact (overrides.listed (.magnitude .attackRange) _
          (.tail _ (.tail _ (.tail _ (.head _))))).trans (by decide +kernel)
      | _ => exact (overrides.standard _ (by decide)).trans (by decide +kernel)
    | _ => exact (overrides.standard _ (by decide)).trans (by decide +kernel)
  rw [listed] at accepted
  rw [← same, ← flat]
  exact ⟨accepted (by rw [same]; decide +kernel),
    refused [flatOffset] (.offset (List.mem_singleton_self _) rfl (.inr (by decide)))⟩

end Sentry.Enemy
