import Sentry.Yaml.Tag

/-! Lines that begin with a percent sign, in front of the mark that starts a
document. One of them may tell the version of YAML; the others declare the handles
that shorten tags. -/
namespace Sentry.Yaml

/-- What the directives of a text have told so far. -/
structure Directives where
  versioned : Bool := false
  /-- Handles, with what they stand for. -/
  handles : List (List Char × List Char) := []

namespace Directives

/-- Unless it is declared otherwise, a single mark stands for itself and a double one for the tags
of YAML itself. -/
def standardHandles : List (List Char × List Char) :=
  [("!".toList, "!".toList), ("!!".toList, "tag:yaml.org,2002:".toList)]

/-- What a handle stands for. -/
def expansion? (d : Directives) (handle : List Char) : Option (List Char) :=
  (d.handles ++ standardHandles).lookup handle

/-- A number of at most nine digits, and what follows. -/
def number? (text : List Char) : Option (Nat × List Char) :=
  let digits := text.takeWhile Char.isDigit
  if digits.isEmpty || 9 < digits.length then none
  else some (Nat.ofDigitChars 10 digits 0, text.drop digits.length)

/-- The version may be told once. Only 1.1 and 1.2 are known. -/
def version? (d : Directives) (text : List Char) : Option (Directives × List Char) :=
  (number? text).bind fun (major, rest) =>
    if rest.head? != some '.' then none
    else (number? (rest.drop 1)).bind fun (minor, rest) =>
      if d.versioned || major != 1 || (minor != 1 && minor != 2) then none
      else some ({ d with versioned := true }, rest)

/-- A handle: one mark, or two with a word between them, which may be empty. -/
def handle? : List Char → Option (List Char × List Char)
  | '!' :: rest =>
    match Tag.word? rest with
    | some word => some ('!' :: word ++ ['!'], rest.drop (word.length + 1))
    | none => if rest.head?.any isWordChar then none else some (['!'], rest)
  | _ => none

/-- A handle is declared with what it stands for, and only once. -/
def declare? (d : Directives) (text : List Char) : Option (Directives × List Char) :=
  (handle? text).bind fun (handle, rest) =>
    let behind := rest.dropWhile isBlank
    let spelling := behind.takeWhile (Tag.isPart true)
    let after := behind.drop spelling.length
    if !rest.head?.any isBlank || spelling.isEmpty || !endsWord after ||
        (d.handles.lookup handle).isSome then none
    else (Tag.name? spelling).map fun start =>
      ({ d with handles := (handle, start) :: d.handles }, after)

/-- A directive behind its percent sign, and what is left of the text behind its line. -/
def read? (d : Directives) (text : List Char) : Option (Directives × List Char) :=
  let name := text.takeWhile isWordChar
  let rest := text.drop name.length
  let told :=
    if !endsWord rest then none
    else if name == "YAML".toList then d.version? (rest.dropWhile isBlank)
    else if name == "TAG".toList then d.declare? (rest.dropWhile isBlank)
    else none
  told.bind fun (d, rest) => (afterLine? rest).map fun rest => (d, rest)

end Directives

end Sentry.Yaml
