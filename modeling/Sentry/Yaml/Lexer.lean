import Sentry.Yaml.Directive
import Sentry.Yaml.Scalar.Block
import Sentry.Yaml.Scalar.Plain
import Sentry.Yaml.Scalar.Quoted
import Sentry.Yaml.Token

/-! The tokens of a YAML text in order. Whether a scalar or a collection is a key
is known only when the colon behind it is met; so the lexer remembers where a key
may have begun and puts the token in front of it later. A key lies in one line and
is not too long. Indentation is kept as a list of margins. A block collection in
column `n` has the margin `n + 1`, the least column of what lies in it; outside of
all of them the margin is zero. -/
namespace Sentry.Yaml

/-- A place where a key may have begun. -/
structure Candidate where
  /-- Number of tokens in front of it. -/
  count : Nat
  line : Nat
  column : Nat
  /-- What is left of the text there. -/
  rest : List Char
  /-- Something other than a key would not fit the indentation. -/
  required : Bool
  deriving DecidableEq

/-- The pass over a text. -/
structure Lexer where
  cursor : Cursor
  /-- Margins of the open block collections, innermost first. -/
  margins : List Nat := []
  /-- A key may begin at the next token. -/
  keyAllowed : Bool := true
  /-- Where the innermost key may have begun. -/
  candidate : Option Candidate := none
  /-- The same for the collections around each open flow collection, innermost first. -/
  outer : List (Option Candidate) := []
  directives : Directives := {}
  /-- The tokens so far, last first. -/
  found : List Token := []

namespace Lexer

def inFlow (s : Lexer) : Bool :=
  !s.outer.isEmpty

/-- The least column for what lies in the innermost block collection. -/
def margin (s : Lexer) : Nat :=
  s.margins.headD 0

/-- One more token, and the place behind it. -/
def emit (s : Lexer) (token : Token) (count : Nat) : Lexer :=
  { s with cursor := s.cursor.forward count, found := token :: s.found }

/-- Tokens put behind the first `count` ones. -/
def insert (s : Lexer) (count : Nat) (tokens : List Token) : Lexer :=
  let later := s.found.length - count
  { s with found := s.found.take later ++ tokens.reverse ++ s.found.drop later }

/-! ## Keys -/

/-- The most bytes that a key may take up, with what separates it from its colon. -/
def keyLimit : Nat := 1024

/-- A key that began at a candidate would by now span lines or be too long. -/
def isStale (s : Lexer) (c : Candidate) : Bool :=
  c.line < s.cursor.line || keyLimit < byteCount (c.rest.take (s.cursor.column - c.column))

/-- A candidate that has become stale is given up; that is refused if a key is required there. -/
def refresh? (s : Lexer) : Option Candidate → Option (Option Candidate)
  | none => some none
  | some c =>
    if !s.isStale c then some (some c) else if c.required then none else some none

/-- All candidates that have become stale are given up. -/
def dropStale? (s : Lexer) : Option Lexer :=
  (s.refresh? s.candidate).bind fun candidate =>
    (s.outer.mapM s.refresh?).map fun outer => { s with candidate, outer }

/-- The candidate is given up; that is refused if a key is required there. -/
def dropCandidate? (s : Lexer) : Option Lexer :=
  if s.candidate.any (·.required) then none else some { s with candidate := none }

def here (s : Lexer) : Candidate where
  count := s.found.length
  line := s.cursor.line
  column := s.cursor.column
  rest := s.cursor.rest
  required := !s.inFlow && s.margin == s.cursor.column + 1

/-- The next token may begin a key, if one is allowed. -/
def markCandidate? (s : Lexer) : Option Lexer :=
  if s.keyAllowed then
    s.dropCandidate?.map fun s => { s with candidate := some s.here }
  else some s

/-! ## Indentation -/

/-- The block collections that lie deeper than the margin end. -/
def endBlocks (limit : Nat) : List Nat → List Token → List Nat × List Token
  | [], found => ([], found)
  | margin :: outer, found =>
    if limit < margin then endBlocks limit outer (.blockEnd :: found)
    else (margin :: outer, found)

/-- The block collections that lie deeper than the margin end, unless a flow collection is open. -/
def unroll (s : Lexer) (limit : Nat) : Lexer :=
  if s.inFlow then s
  else
    let (margins, found) := endBlocks limit s.margins s.found
    { s with margins, found }

/-- A block collection begins in a column that lies deeper than the others; its token goes behind
the first `count` tokens, in front of those given. -/
def roll (s : Lexer) (column count : Nat) (start : Token) (tokens : List Token) : Lexer :=
  if !s.inFlow && s.margin ≤ column then
    { s.insert count (start :: tokens) with margins := (column + 1) :: s.margins }
  else s.insert count tokens

/-! ## Tokens -/

/-- A directive, with the end of its line. -/
def directive? (s : Lexer) : Option Lexer :=
  (s.unroll 0).dropCandidate?.bind fun s =>
    (s.directives.read? (s.cursor.rest.drop 1)).map fun (directives, rest) =>
      { s with
        cursor := { rest, line := s.cursor.line + 1 }
        keyAllowed := false
        directives
        found := .directive :: s.found }

/-- A mark between documents. -/
def documentMarker? (s : Lexer) (token : Token) : Option Lexer :=
  (s.unroll 0).dropCandidate?.map fun s => { s.emit token 3 with keyAllowed := false }

/-- The bracket that opens a flow collection; the collection may be a key. -/
def openFlow? (s : Lexer) (token : Token) : Option Lexer :=
  s.markCandidate?.map fun s =>
    { s.emit token 1 with keyAllowed := true, candidate := none, outer := s.candidate :: s.outer }

def closeFlow? (s : Lexer) (token : Token) : Option Lexer :=
  s.dropCandidate?.map fun s =>
    { s.emit token 1 with
      keyAllowed := false, candidate := s.outer.head?.join, outer := s.outer.drop 1 }

def flowEntry? (s : Lexer) : Option Lexer :=
  s.dropCandidate?.map fun s => { s.emit .flowEntry 1 with keyAllowed := true }

/-- The dash of a block sequence. -/
def blockEntry? (s : Lexer) : Option Lexer :=
  if s.inFlow || s.keyAllowed then
    (s.roll s.cursor.column s.found.length .blockSequenceStart []).dropCandidate?.map fun s =>
      { s.emit .blockEntry 1 with keyAllowed := true }
  else none

/-- The question mark in front of a key. -/
def explicitKey? (s : Lexer) : Option Lexer :=
  if s.inFlow || s.keyAllowed then
    (s.roll s.cursor.column s.found.length .blockMappingStart []).dropCandidate?.map fun s =>
      { s.emit .key 1 with keyAllowed := !s.inFlow }
  else none

/-- The colon in front of a value: behind the candidate, which then is a key, or without one. -/
def value? (s : Lexer) : Option Lexer :=
  match s.candidate with
  | some c =>
    let keyed := s.roll c.column c.count .blockMappingStart [.key]
    some { keyed.emit .value 1 with keyAllowed := false, candidate := none }
  | none =>
    if s.inFlow || s.keyAllowed then
      let rolled := s.roll s.cursor.column s.found.length .blockMappingStart []
      some { rolled.emit .value 1 with keyAllowed := !s.inFlow }
    else none

/-- The name behind `&` or `*`. -/
def name? (s : Lexer) (token : String → Token) : Option Lexer :=
  s.markCandidate?.bind fun s =>
    let text := s.cursor.rest.drop 1
    let name := text.takeWhile isWordChar
    let ended := match text.dropWhile isWordChar with
      | c :: _ => isBlank c || isBreak c || "?:,]\x7d%@\x60".toList.contains c
      | [] => true
    if name.isEmpty || !ended then none
    else some
      { s.emit (token (String.ofList name)) (name.length + 1) with keyAllowed := false }

def tag? (s : Lexer) : Option Lexer :=
  s.markCandidate?.bind fun s =>
    (Tag.parse? s.directives.expansion? (s.cursor.rest.drop 1)).bind fun (name, length) =>
      let after := s.cursor.rest.drop (length + 1)
      if endsWord after || (s.inFlow && after.head? == some ',') then
        some { s.emit (.tag (String.ofList name)) (length + 1) with keyAllowed := false }
      else none

def blockScalar? (s : Lexer) (literal : Bool) : Option Lexer :=
  s.dropCandidate?.bind fun s =>
    (Scalar.Header.parse? (s.cursor.rest.drop 1)).bind fun (header, rest) =>
      (afterLine? rest).bind fun body =>
        let indent := if header.indent = 0 then 0 else s.margin - 1 + header.indent
        (Scalar.block? literal header.chomp s.margin false { indent } (s.cursor.line + 1) 0 body).map
          fun (text, cursor) =>
            { s with
              cursor
              keyAllowed := true
              found := .scalar (if literal then .literal else .folded) text :: s.found }

def quotedScalar? (s : Lexer) (double : Bool) : Option Lexer :=
  s.markCandidate?.bind fun s =>
    (Scalar.quoted? double .text [] .none s.cursor.line (s.cursor.column + 1)
      (s.cursor.rest.drop 1)).map fun (text, cursor) =>
        { s with cursor, keyAllowed := false, found := .scalar .quoted text :: s.found }

/-- A plain scalar. If it ends behind a line break, a key may follow. -/
def plainScalar? (s : Lexer) : Option Lexer :=
  s.markCandidate?.bind fun s =>
    (Scalar.plain? s.inFlow s.margin [] .none s.cursor.line s.cursor.column s.cursor.rest).map
      fun (text, newLine, cursor) =>
        { s with cursor, keyAllowed := newLine, found := .scalar .plain text :: s.found }

/-- Characters that begin no plain scalar. -/
def isIndicator (c : Char) : Bool :=
  isFlowIndicator c || "-?:#&*!|>'\"%@\x60".toList.contains c

/-- A plain scalar may begin here. -/
def beginsPlain (inFlow : Bool) (c : Char) (rest : List Char) : Bool :=
  (!isBlank c && !isBreak c && !isIndicator c) ||
    (c == '-' && !(rest.head?.any isBlank)) ||
    (!inFlow && (c == '?' || c == ':') && !endsWord rest)

/-- The token that begins with `c`. -/
def token? (s : Lexer) (c : Char) (rest : List Char) : Option Lexer :=
  if s.cursor.column == 0 && c == '%' then s.directive?
  else if s.cursor.column == 0 && isStartMarker (c :: rest) then s.documentMarker? .documentStart
  else if s.cursor.column == 0 && isEndMarker (c :: rest) then s.documentMarker? .documentEnd
  else if c == '[' then s.openFlow? .flowSequenceStart
  else if c == '\x7b' then s.openFlow? .flowMappingStart
  else if c == ']' then s.closeFlow? .flowSequenceEnd
  else if c == '\x7d' then s.closeFlow? .flowMappingEnd
  else if c == ',' then s.flowEntry?
  else if c == '-' && endsWord rest then s.blockEntry?
  else if c == '?' && (s.inFlow || endsWord rest) then s.explicitKey?
  else if c == ':' && (s.inFlow || endsWord rest) then s.value?
  else if c == '*' then s.name? .alias
  else if c == '&' then s.name? .anchor
  else if c == '!' then s.tag?
  else if c == '|' && !s.inFlow then s.blockScalar? true
  else if c == '>' && !s.inFlow then s.blockScalar? false
  else if c == '\'' then s.quotedScalar? false
  else if c == '"' then s.quotedScalar? true
  else if beginsPlain s.inFlow c rest then s.plainScalar?
  else none

/-- The next token lies ahead: blanks are behind, stale candidates are given up, and the block
collections to which it does not belong have ended. -/
def approach? (s : Lexer) : Option Lexer :=
  let (keyAllowed, cursor) :=
    Cursor.skipBlank s.inFlow s.keyAllowed false s.cursor.line s.cursor.column s.cursor.rest
  let moved := { s with keyAllowed, cursor }
  moved.dropStale?.map fun s => s.unroll (s.cursor.column + 1)

def finish? (s : Lexer) : Option (List Token) :=
  (s.unroll 0).dropCandidate?.map fun s => (.streamEnd :: s.found).reverse

/-- One token more, or none if the text has ended or holds no token here. -/
def step? (s : Lexer) : Option Lexer :=
  match s.cursor.rest with
  | [] => none
  | c :: rest => s.token? c rest

/-- All tokens from here on. Each one takes at least one character, so this ends. -/
def run (s : Lexer) : Option (List Token) :=
  match s.approach? with
  | none => none
  | some s' =>
    if s'.cursor.rest.isEmpty then s'.finish?
    else match s'.step? with
      | none => none
      | some next =>
        if next.cursor.rest.length < s.cursor.rest.length then run next else none
termination_by s.cursor.rest.length

end Lexer

def tokens? (text : List Char) : Option (List Token) :=
  if text.all isAllowed then Lexer.run { cursor := { rest := unifyBreaks text } } else none

end Sentry.Yaml
