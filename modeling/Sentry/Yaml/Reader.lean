import Sentry.Yaml.Lexer
import Sentry.Yaml.Node

/-! Tokens are put together into a document by a fold that keeps the collections
still open, innermost first. Where a node may be left out, the next token shows
that it was, and an empty scalar stands for it. -/
namespace Sentry.Yaml

/-- Anchor and tag in front of a node. -/
structure Properties where
  slot : Option Nat := none
  tag : Option String := none

/-- An open collection, with its slot, what it holds (last first) and what comes next. -/
inductive Frame where
  /-- Block sequence: a dash or its end. -/
  | entries (slot : Option Nat) (items : List Node)
  /-- Block sequence: a node, behind a dash. -/
  | entry (slot : Option Nat) (items : List Node)
  /-- Block sequence without indentation of its own: a dash, or anything else as its end. -/
  | bareEntries (slot : Option Nat) (items : List Node)
  /-- Block sequence without indentation of its own: a node, behind a dash. -/
  | bareEntry (slot : Option Nat) (items : List Node)
  /-- Block mapping: a key or its end. -/
  | pairs (slot : Option Nat) (pairs : List (Node × Node))
  /-- Block mapping: the node of a key. -/
  | key (slot : Option Nat) (pairs : List (Node × Node))
  /-- Block mapping: the colon behind a key. -/
  | colon (slot : Option Nat) (pairs : List (Node × Node)) (name : Node)
  /-- Block mapping: the node of a value. -/
  | value (slot : Option Nat) (pairs : List (Node × Node)) (name : Node)
  /-- Flow sequence: a comma or its end. -/
  | flowItems (slot : Option Nat) (items : List Node)
  /-- Flow sequence: an item, a key or its end. -/
  | flowItem (slot : Option Nat) (items : List Node)
  /-- Single pair in a flow sequence: the node of its key. -/
  | flowItemKey (slot : Option Nat) (items : List Node)
  /-- Single pair in a flow sequence: the colon. -/
  | flowItemColon (slot : Option Nat) (items : List Node) (name : Node)
  /-- Single pair in a flow sequence: the node of its value. -/
  | flowItemValue (slot : Option Nat) (items : List Node) (name : Node)
  /-- Flow mapping: a comma or its end. -/
  | flowPairs (slot : Option Nat) (pairs : List (Node × Node))
  /-- Flow mapping: a key, a node without a value, or its end. -/
  | flowPair (slot : Option Nat) (pairs : List (Node × Node))
  /-- Flow mapping: the node of a key. -/
  | flowKey (slot : Option Nat) (pairs : List (Node × Node))
  /-- Flow mapping: the colon behind a key. -/
  | flowColon (slot : Option Nat) (pairs : List (Node × Node)) (name : Node)
  /-- Flow mapping: the node of a value. -/
  | flowValue (slot : Option Nat) (pairs : List (Node × Node)) (name : Node)

namespace Frame

/-- Which nodes may come next. -/
inductive Wanted where
  /-- None: an indicator has to come first. -/
  | nothing
  /-- Flow nodes. -/
  | flow
  /-- All nodes. -/
  | block
  /-- All nodes, also block sequences without indentation of their own. -/
  | bare
  deriving DecidableEq

/-- Which nodes the collection waits for. -/
def wanted : Frame → Wanted
  | .entry .. | .bareEntry .. => .block
  | .key .. | .value .. => .bare
  | .flowItem .. | .flowItemKey .. | .flowItemValue .. => .flow
  | .flowPair .. | .flowKey .. | .flowValue .. => .flow
  | _ => .nothing

/-- The token shows that the node was left out. -/
def leftOut : Frame → Token → Bool
  | .entry .., token => token == .blockEntry || token == .blockEnd
  | .bareEntry .., token =>
    token == .blockEntry || token == .key || token == .value || token == .blockEnd
  | .key .., token | .value .., token => token == .key || token == .value || token == .blockEnd
  | .flowItemValue .., token => token == .flowEntry || token == .flowSequenceEnd
  | .flowKey .., token =>
    token == .value || token == .flowEntry || token == .flowMappingEnd
  | .flowValue .., token => token == .flowEntry || token == .flowMappingEnd
  | _, _ => false

end Frame

/-- Where the fold stands. -/
inductive Reader.Place where
  /-- Before the document. -/
  | before
  /-- Behind directives, which are part of a document. -/
  | directed
  /-- Behind the mark that starts the document. -/
  | started
  /-- In the document: the properties of the next node, and the open collections. -/
  | within (properties : Properties) (open_ : List Frame)
  /-- Behind the node of the document. -/
  | after (root : Node)
  /-- Behind the end of the text. -/
  | ended (root : Node)

/-- The fold: its place, and the slots of the anchors so far. -/
structure Reader where
  place : Reader.Place := .before
  anchors : List (String × Nat) := []

namespace Reader

/-- A finished node goes into the innermost collection that waits for one. -/
def deliver (node : Node) : List Frame → Option Place
  | [] => some (.after node)
  | frame :: outer =>
    let next (frame : Frame) : Option Place := some (.within {} (frame :: outer))
    match frame with
    | .entry slot items => next (.entries slot (node :: items))
    | .bareEntry slot items => next (.bareEntries slot (node :: items))
    | .key slot pairs => next (.colon slot pairs node)
    | .value slot pairs name => next (.pairs slot ((name, node) :: pairs))
    | .flowItem slot items => next (.flowItems slot (node :: items))
    | .flowItemKey slot items => next (.flowItemColon slot items node)
    | .flowItemValue slot items name =>
      next (.flowItems slot (.mapping none [(name, node)] :: items))
    | .flowPair slot pairs => next (.flowPairs slot ((node, .empty) :: pairs))
    | .flowKey slot pairs => next (.flowColon slot pairs node)
    | .flowValue slot pairs name => next (.flowPairs slot ((name, node) :: pairs))
    | _ => none

/-- Which nodes may come next: any node but a bare sequence outside of all collections. -/
def wanted : List Frame → Frame.Wanted
  | [] => .block
  | frame :: _ => frame.wanted

/-- A node goes on with the token, given the properties already read. -/
def continues (properties : Properties) (wanted : Frame.Wanted) : Token → Bool
  | .scalar .. | .flowSequenceStart | .flowMappingStart => true
  | .blockSequenceStart | .blockMappingStart => wanted == .block || wanted == .bare
  | .blockEntry => wanted == .bare
  | .anchor _ => properties.slot.isNone
  | .tag _ => properties.tag.isNone
  | _ => false

/-- The token shows that the next node was left out: its properties are not followed by anything, or
the collection goes on without it. -/
def isLeftOut (properties : Properties) (frames : List Frame) (token : Token) : Bool :=
  if properties.slot.isSome || properties.tag.isSome then
    !continues properties (wanted frames) token
  else frames.head?.any (·.leftOut token)

/-- An empty scalar stands for a node that the token shows was left out. -/
def fillNode? (token : Token) : Place → Option Place
  | .started =>
    if token == .documentStart || token == .documentEnd || token == .streamEnd then
      some (.after .empty)
    else some (.within {} [])
  | .within properties frames =>
    if isLeftOut properties frames token then
      deliver (.scalar properties.slot properties.tag .plain "") frames
    else some (.within properties frames)
  | place => some place

/-- A sequence without indentation of its own ends where no dash follows. -/
def endBare? (token : Token) : Place → Option Place
  | .within properties (.bareEntries slot items :: outer) =>
    if token == .blockEntry then some (.within properties (.bareEntries slot items :: outer))
    else deliver (.sequence slot items.reverse) outer
  | place => some place

/-- A key without a colon has an empty value. -/
def fillValue (token : Token) : Place → Place
  | .within properties (frame :: outer) =>
    if token == .value then .within properties (frame :: outer)
    else match frame with
      | .colon slot pairs name => .within {} (.pairs slot ((name, .empty) :: pairs) :: outer)
      | .flowItemColon slot items name =>
        .within {} (.flowItems slot (.mapping none [(name, .empty)] :: items) :: outer)
      | .flowColon slot pairs name =>
        .within {} (.flowPairs slot ((name, .empty) :: pairs) :: outer)
      | _ => .within properties (frame :: outer)
  | place => place

/-- The slots after one more anchor, and its own slot: the number of names there were. -/
def define (anchors : List (String × Nat)) (name : String) : Nat × List (String × Nat) :=
  (anchors.length, (name, anchors.length) :: anchors.filter (·.1 != name))

/-- A token that begins or makes up a node, or stands in front of one. -/
def beginNode? (anchors : List (String × Nat)) (properties : Properties) (frames : List Frame)
    (token : Token) : Option Reader :=
  let inside (frame : Frame) : Option Reader := some ⟨.within {} (frame :: frames), anchors⟩
  let wanted := wanted frames
  if wanted == .nothing then none
  else match token with
    | .alias name =>
      (anchors.lookup name).bind fun slot =>
        (deliver (.alias slot) frames).map (⟨·, anchors⟩)
    | .anchor name =>
      let (slot, anchors) := define anchors name
      some ⟨.within { properties with slot } frames, anchors⟩
    | .tag name => some ⟨.within { properties with tag := name } frames, anchors⟩
    | .scalar style text =>
      (deliver (.scalar properties.slot properties.tag style text) frames).map (⟨·, anchors⟩)
    | .flowSequenceStart => inside (.flowItem properties.slot [])
    | .flowMappingStart => inside (.flowPair properties.slot [])
    | .blockSequenceStart => if wanted == .flow then none else inside (.entries properties.slot [])
    | .blockMappingStart => if wanted == .flow then none else inside (.pairs properties.slot [])
    | .blockEntry => if wanted == .bare then inside (.bareEntry properties.slot []) else none
    | _ => none

/-- The effect of a token in the innermost collection. -/
def stepWithin? (anchors : List (String × Nat)) (properties : Properties) (frames : List Frame)
    (token : Token) : Option Reader :=
  let next (frame : Frame) : Option Reader :=
    some ⟨.within {} (frame :: frames.drop 1), anchors⟩
  let close (node : Node) : Option Reader := (deliver node (frames.drop 1)).map (⟨·, anchors⟩)
  match frames.head?, token with
  | some (.entries slot items), .blockEntry => next (.entry slot items)
  | some (.entries slot items), .blockEnd => close (.sequence slot items.reverse)
  | some (.bareEntries slot items), .blockEntry => next (.bareEntry slot items)
  | some (.pairs slot pairs), .key => next (.key slot pairs)
  | some (.pairs slot pairs), .blockEnd => close (.mapping slot pairs.reverse)
  | some (.colon slot pairs name), .value => next (.value slot pairs name)
  | some (.flowItems slot items), .flowEntry => next (.flowItem slot items)
  | some (.flowItems slot items), .flowSequenceEnd => close (.sequence slot items.reverse)
  | some (.flowItem slot items), .flowSequenceEnd => close (.sequence slot items.reverse)
  | some (.flowItem slot items), .key => next (.flowItemKey slot items)
  | some (.flowItemKey slot items), .value => next (.flowItemColon slot items .empty)
  | some (.flowItemKey slot items), .flowEntry => next (.flowItemColon slot items .empty)
  | some (.flowItemKey slot items), .flowSequenceEnd => next (.flowItemColon slot items .empty)
  | some (.flowItemColon slot items name), .value => next (.flowItemValue slot items name)
  | some (.flowPairs slot pairs), .flowEntry => next (.flowPair slot pairs)
  | some (.flowPairs slot pairs), .flowMappingEnd => close (.mapping slot pairs.reverse)
  | some (.flowPair slot pairs), .flowMappingEnd => close (.mapping slot pairs.reverse)
  | some (.flowPair slot pairs), .key => next (.flowKey slot pairs)
  | some (.flowColon slot pairs name), .value => next (.flowValue slot pairs name)
  | _, _ => beginNode? anchors properties frames token

def step? (r : Reader) (token : Token) : Option Reader :=
  ((fillNode? token r.place).bind (endBare? token)).bind fun place =>
    match fillValue token place, token with
    | .before, .streamEnd => some { r with place := .ended .empty }
    | .before, .directive | .directed, .directive => some { r with place := .directed }
    | .before, .documentStart | .directed, .documentStart => some { r with place := .started }
    | .directed, _ => none
    | .before, token => beginNode? r.anchors {} [] token
    | .started, _ => none
    | .within properties frames, token => stepWithin? r.anchors properties frames token
    | .after root, .documentEnd => some { r with place := .after root }
    | .after root, .streamEnd => some { r with place := .ended root }
    | .after _, _ => none
    | .ended _, _ => none

end Reader

def Document.ofTokens? (tokens : List Token) : Option Document :=
  (tokens.foldlM Reader.step? {}).bind fun reader =>
    match reader.place with
    | .ended root => some (.ofRoot root)
    | _ => none

/-- The only document of a text. A text that holds nothing is an empty document. -/
def Document.parse? (text : String) : Option Document :=
  (tokens? text.toList).bind Document.ofTokens?

end Sentry.Yaml
