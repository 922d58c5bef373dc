import Sentry.Yaml.Token

/-! The data of a YAML document. Anchors are kept as slots: a node that has an
anchor carries its slot, and an alias names the slot it stands for. Whoever
reads a document leaves the text for what an alias stands for, and how often
is counted. -/
namespace Sentry.Yaml

/-- A node of a document. Tags are kept for scalars, where they can matter. -/
inductive Node where
  | scalar (slot : Option Nat) (tag : Option String) (style : Style) (text : String)
  | sequence (slot : Option Nat) (items : List Node)
  | mapping (slot : Option Nat) (pairs : List (Node × Node))
  | alias (slot : Nat)
  deriving Inhabited

namespace Node

/-- What stands where nothing is written. -/
def empty : Node :=
  .scalar none none .plain ""

def ofSlot (slot : Option Nat) (node : Node) : List (Nat × Node) :=
  match slot with
  | some slot => [(slot, node)]
  | none => []

mutual

/-- The nodes that carry slots, in the order in which they begin. -/
def slots : Node → List (Nat × Node)
  | .scalar slot tag style text => ofSlot slot (.scalar slot tag style text)
  | .sequence slot items => ofSlot slot (.sequence slot items) ++ itemSlots items
  | .mapping slot pairs => ofSlot slot (.mapping slot pairs) ++ pairSlots pairs
  | .alias _ => []

def itemSlots : List Node → List (Nat × Node)
  | [] => []
  | item :: rest => slots item ++ itemSlots rest

def pairSlots : List (Node × Node) → List (Nat × Node)
  | [] => []
  | (key, value) :: rest => slots key ++ slots value ++ pairSlots rest

end

mutual

/-- The number of marks in a node: one for a scalar or an alias, and one for each end of a sequence
or a mapping. -/
def size : Node → Nat
  | .scalar .. => 1
  | .sequence _ items => itemsSize items + 2
  | .mapping _ pairs => pairsSize pairs + 2
  | .alias _ => 1

def itemsSize : List Node → Nat
  | [] => 0
  | item :: rest => size item + itemsSize rest

def pairsSize : List (Node × Node) → Nat
  | [] => 0
  | (key, value) :: rest => size key + size value + pairsSize rest

end

/-- An alias sends its reader elsewhere, and any other node does not. -/
def detours : Node → Nat
  | .alias _ => 1
  | _ => 0

end Node

/-- A document: its node, and the nodes that carry slots, the latest first. -/
structure Document where
  root : Node
  defined : List (Nat × Node)

namespace Document

def ofRoot (root : Node) : Document :=
  ⟨root, root.slots.reverse⟩

/-- The node itself, or the one that an alias stands for: the latest one with its slot. -/
def resolve (d : Document) : Node → Node
  | .alias slot => (d.defined.lookup slot).getD .empty
  | node => node

def text? (d : Document) (node : Node) : Option String :=
  match d.resolve node with
  | .scalar _ _ _ text => some text
  | _ => none

/-- The text of a scalar that can be read as a value of the type with a given tag: a plain one, or
a literal one with that tag. -/
def valueText? (d : Document) (tag : String) (node : Node) : Option String :=
  match d.resolve node with
  | .scalar _ _ .plain text => some text
  | .scalar _ (some own) .literal text => if own = tag then some text else none
  | _ => none

/-- The items of a sequence. Nothing written is an empty sequence. -/
def items? (d : Document) (node : Node) : Option (List Node) :=
  match d.resolve node with
  | .sequence _ items => some items
  | .scalar _ _ .plain text => if text.isEmpty then some [] else none
  | _ => none

/-- The pairs of a mapping, whose keys have to be scalars. Nothing written is an empty mapping. -/
def fields? (d : Document) (node : Node) : Option (List (String × Node)) :=
  match d.resolve node with
  | .mapping _ pairs => pairs.mapM fun (key, value) => (d.text? key).map fun name => (name, value)
  | .scalar _ _ .plain text => if text.isEmpty then some [] else none
  | _ => none

/-- The detours of a reader of a sequence, given those of a reader of one item. -/
def detoursInItems (d : Document) (inside : Node → Nat) (node : Node) : Nat :=
  node.detours +
    match d.resolve node with
    | .sequence _ items => (items.map inside).foldr (· + ·) 0
    | _ => 0

/-- The detours of a reader of a mapping, given those of a reader of the value under a name. Every
key is read. -/
def detoursInFields (d : Document) (inside : String → Node → Nat) (node : Node) : Nat :=
  node.detours +
    match d.resolve node with
    | .mapping _ pairs =>
      (pairs.map fun (key, value) =>
        key.detours + ((d.text? key).map fun name => inside name value).getD 0).foldr (· + ·) 0
    | _ => 0

/-- A reader of a document may make a hundred detours for each of its marks. With more, a short
text would stand for an unreasonably long one. -/
def allows (d : Document) (detours : Nat) : Bool :=
  detours ≤ 100 * d.root.size

end Document

end Sentry.Yaml
