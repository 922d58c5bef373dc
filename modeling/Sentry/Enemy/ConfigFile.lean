import Sentry.Decimal.Numeral
import Sentry.Enemy.Config
import Sentry.Yaml.Reader

/-! Settings are kept in YAML files. A file lists what it overrides, and what it
does not list has its default. Keys that are no settings are passed over, but a
setting listed twice is refused, and so is a text that leans on its aliases too
often. -/
namespace Sentry.Enemy

/-! ## Scalars -/

/-- Numbers in files have an exponent only if they are very large or very small, and whole ones end
in a point and a zero. -/
def fileLayout : Layout where
  above := some (-6)
  upTo := some 13
  keepsPoint := true
  tie := .even
  nan := ".nan"
  infinity := ".inf"

/-- A numeral, or one of the words for infinities and NaN. A numeral too large for binary64 is
refused. -/
def readNumber? (text : List Char) : Option Float :=
  let unsigned := match text with
    | '+' :: rest => rest
    | rest => rest
  if text.head? == some '+' && (unsigned.head? == some '+' || unsigned.head? == some '-') then none
  else if [".inf", ".Inf", ".INF"].contains (String.ofList unsigned) then
    some (Float.ofBits 0x7FF0000000000000)
  else if ["-.inf", "-.Inf", "-.INF"].contains (String.ofList text) then
    some (Float.ofBits 0xFFF0000000000000)
  else if [".nan", ".NaN", ".NAN"].contains (String.ofList text) then
    some (Float.ofBits 0x7FF8000000000000)
  else
    ((Numeral.parse? unsigned).map Numeral.value).filter Float.isFinite

/-- The value of a digit in bases up to sixteen. -/
def digitValue? (base : Nat) (c : Char) : Option Nat :=
  (hexValue? c).filter (· < base)

/-- The natural number that digits spell; there has to be at least one. -/
def readDigits? (base : Nat) : List Char → Option Nat
  | [] => none
  | digits => digits.foldlM (fun value c => (digitValue? base c).map (base * value + ·)) 0

/-- A natural number in decimal, hexadecimal, octal or binary notation, with an optional plus.
Decimals have no leading zeros. -/
def readNatural? (text : List Char) : Option Nat :=
  let unsigned := match text with
    | '+' :: rest => rest
    | rest => rest
  match unsigned with
  | '0' :: 'x' :: digits => readDigits? 16 digits
  | '0' :: 'o' :: digits => readDigits? 8 digits
  | '0' :: 'b' :: digits => readDigits? 2 digits
  | '0' :: _ :: _ => none
  | digits => readDigits? 10 digits

/-! ## Reading -/

section Reading

variable (d : Yaml.Document)

/-- A number, rounded to binary32. -/
def number? (node : Yaml.Node) : Option Float32 :=
  ((d.valueText? "tag:yaml.org,2002:float" node).bind fun text => readNumber? text.toList).map narrow

/-- A natural number of 32 bits. -/
def word? (node : Yaml.Node) : Option UInt32 :=
  (((d.valueText? "tag:yaml.org,2002:int" node).bind fun text => readNatural? text.toList).filter
    (· < UInt32.size)).map UInt32.ofNat

/-- The node under a name, if there is one; none at all if there are two. -/
def only? (fields : List (String × Yaml.Node)) (name : String) : Option (Option Yaml.Node) :=
  match fields.filter (·.1 == name) with
  | [] => some none
  | [field] => some (some field.2)
  | _ => none

/-- A field that has to be there. -/
def required? {β : Type} (read : Yaml.Node → Option β) (fields : List (String × Yaml.Node))
    (name : String) : Option β :=
  (only? fields name).bind fun node => node.bind read

/-- A field that may be left out. -/
def override? {β : Type} (read : Yaml.Node → Option β) (fields : List (String × Yaml.Node))
    (name : String) (standard : β) : Option β :=
  (only? fields name).bind fun node =>
    match node with
    | none => some standard
    | some node => read node

def vec? (node : Yaml.Node) : Option Vec :=
  (d.fields? node).bind fun fields => do
    let x ← required? (number? d) fields "x"
    let y ← required? (number? d) fields "y"
    some ⟨x, y⟩

def route? (node : Yaml.Node) : Option (List Vec) :=
  (d.items? node).bind fun items => items.mapM (vec? d)

def config? : Option Config :=
  (d.fields? d.root).bind fun fields => do
    let standard : Config := {}
    let number := override? (number? d) fields
    let word := override? (word? d) fields
    let attackRange ← number "attack_range" standard.attackRange
    let detectionRange ← number "detection_range" standard.detectionRange
    let patrolSpeed ← number "patrol_speed" standard.patrolSpeed
    let chaseSpeed ← number "chase_speed" standard.chaseSpeed
    let waypointTolerance ← number "waypoint_tolerance" standard.waypointTolerance
    let attackWindup ← number "attack_windup_seconds" standard.attackWindup
    let attackCooldown ← number "attack_cooldown_seconds" standard.attackCooldown
    let attackDamage ← word "attack_damage" standard.attackDamage
    let attackRadius ← number "attack_radius" standard.attackRadius
    let attackOffset ← override? (vec? d) fields "attack_offset" standard.attackOffset
    let stunDuration ← number "stun_seconds" standard.stunDuration
    let targetLayer ← word "target_layer" standard.targetLayer.bits
    let route ← override? (route? d) fields "patrol_points" standard.route
    some
      { attackRange, detectionRange, patrolSpeed, chaseSpeed, waypointTolerance, attackWindup,
        attackCooldown, attackDamage, attackRadius, attackOffset, stunDuration,
        targetLayer := ⟨targetLayer⟩, route }

/-! ## Aliases

A text in which aliases are followed too often is refused. Values that are passed over are not
followed into.
-/

def scalarKeys : List String :=
  Magnitude.all.map Magnitude.key ++ ["waypoint_tolerance", "attack_damage", "target_layer"]

def vecDetours (node : Yaml.Node) : Nat :=
  d.detoursInFields (fun name value => if ["x", "y"].contains name then value.detours else 0) node

def routeDetours (node : Yaml.Node) : Nat :=
  d.detoursInItems (vecDetours d) node

/-- How many aliases are followed to read the value under a name. -/
def settingDetours (name : String) (value : Yaml.Node) : Nat :=
  if name = "attack_offset" then vecDetours d value
  else if name = "patrol_points" then routeDetours d value
  else if scalarKeys.contains name then value.detours
  else 0

/-- How many aliases are followed to read a record. -/
def configDetours : Nat :=
  d.detoursInFields (settingDetours d) d.root

end Reading

/-- Why a text is refused. -/
inductive ReadFault where
  /-- The text is not one document, or does not spell a record. -/
  | malformed
  /-- The record that it spells is not valid. -/
  | invalid (fault : ConfigFault)
  deriving DecidableEq

def ReadFault.message : ReadFault → String
  | .malformed => "failed to parse enemy config"
  | .invalid fault => "invalid enemy config: " ++ fault.message

namespace Config

/-- The record that a text spells, valid or not. -/
def read? (text : String) : Option Config :=
  ((Yaml.Document.parse? text).filter fun d => d.allows (configDetours d)).bind config?

/-- The record that a text spells, unless it is not valid. -/
def ofYaml (text : String) : Except ReadFault Config :=
  match read? text with
  | none => .error .malformed
  | some config =>
    match config.fault? with
    | some fault => .error (.invalid fault)
    | none => .ok config

/-! ## Writing -/

def line (key value : String) : String :=
  key ++ ": " ++ value ++ "\n"

def numberLine (key : String) (value : Float32) : String :=
  line key (fileLayout.single value)

def pointLines (point : Vec) : String :=
  numberLine "- x" point.x ++ numberLine "  y" point.y

def routeLines : List Vec → String
  | [] => line "patrol_points" "[]"
  | route => "patrol_points:\n" ++ String.join (route.map pointLines)

def toYaml (config : Config) : String :=
  numberLine "attack_range" config.attackRange ++
  numberLine "detection_range" config.detectionRange ++
  numberLine "patrol_speed" config.patrolSpeed ++
  numberLine "chase_speed" config.chaseSpeed ++
  numberLine "waypoint_tolerance" config.waypointTolerance ++
  numberLine "attack_windup_seconds" config.attackWindup ++
  numberLine "attack_cooldown_seconds" config.attackCooldown ++
  line "attack_damage" (toString config.attackDamage.toNat) ++
  numberLine "attack_radius" config.attackRadius ++
  "attack_offset:\n" ++ numberLine "  x" config.attackOffset.x ++
  numberLine "  y" config.attackOffset.y ++
  numberLine "stun_seconds" config.stunDuration ++
  line "target_layer" (toString config.targetLayer.bits.toNat) ++
  routeLines config.route

end Config

/-! ## Files -/

/-- Why a file is refused. -/
inductive LoadFault where
  /-- The file cannot be read, or is not UTF-8. -/
  | unreadable
  /-- What it holds is refused. -/
  | refused (fault : ReadFault)
  deriving DecidableEq

def LoadFault.message (path : String) : LoadFault → String
  | .unreadable => "Failed to read enemy config from " ++ path
  | .refused _ => "Failed to load enemy config from " ++ path

/-- The record in a file, given its bytes if it can be read. -/
def Config.load (bytes : Option ByteArray) : Except LoadFault Config :=
  match bytes.bind String.fromUTF8? with
  | none => .error .unreadable
  | some text =>
    match Config.ofYaml text with
    | .error fault => .error (.refused fault)
    | .ok config => .ok config

end Sentry.Enemy
