import Sentry.Text.Hex
import Sentry.Yaml.Character

/-! Tags, which name the types of nodes. A tag is spelled in full in angle
brackets, or shortened by a handle. A percent sign and two hexadecimal digits
spell one octet of a character. -/
namespace Sentry.Yaml.Tag

/-- Characters that spell a tag; commas and brackets only in angle brackets. -/
def isPart (verbatim : Bool) (c : Char) : Bool :=
  isWordChar c || ";/?:@&=+$.!~*'()%".toList.contains c || (verbatim && ",[]".toList.contains c)

/-- How many octets follow the first octet of a character. -/
def trailing? (octet : Nat) : Option Nat :=
  if octet < 0x80 then some 0
  else if octet < 0xC0 then none
  else if octet < 0xE0 then some 1
  else if octet < 0xF0 then some 2
  else if octet < 0xF8 then some 3
  else none

/-- How many octets are still to follow an octet: the first one of a character, or one in the place
of `left` others. -/
def following? (left octet : Nat) : Option Nat :=
  if left = 0 then trailing? octet
  else if 0x80 ≤ octet ∧ octet < 0xC0 then some (left - 1)
  else none

/-- The character that octets encode; a replacement if there is no such character. -/
def ofOctets (octets : List Nat) : Char :=
  let text := String.fromUTF8? ⟨(octets.map UInt8.ofNat).toArray⟩
  (text.bind (·.toList.head?)).getD '\ufffd'

/-- The characters that a spelling stands for, none if an escape is not well formed. Of the first
character `octets` are read already and `left` are still to come. -/
def decode? (left : Nat) (octets : List Nat) : List Char → Option (List Char)
  | [] => if left = 0 then some [] else none
  | '%' :: high :: low :: rest =>
    (hexValue? high).bind fun high =>
      (hexValue? low).bind fun low =>
        let octet := 16 * high + low
        (following? left octet).bind fun left =>
          if left = 0 then (decode? 0 [] rest).map (ofOctets (octets ++ [octet]) :: ·)
          else decode? left (octets ++ [octet]) rest
  | c :: rest => if left ≠ 0 ∨ c = '%' then none else (decode? 0 [] rest).map (c :: ·)

/-- The name that a spelling stands for, which ends before a null character. -/
def name? (spelling : List Char) : Option (List Char) :=
  (decode? 0 [] spelling).map fun name => name.takeWhile (· != '\x00')

/-- The word between the two marks of a handle, given what follows the first one. -/
def word? (text : List Char) : Option (List Char) :=
  let word := text.takeWhile isWordChar
  if (text.drop word.length).head? == some '!' then some word else none

/-- A tag behind its exclamation mark: its full name, and how many characters spell it. Handles are
looked up; a tag that is nothing but a mark has none. -/
def parse? (expansion? : List Char → Option (List Char)) (text : List Char) :
    Option (List Char × Nat) :=
  match text with
  | '<' :: rest =>
    let spelling := rest.takeWhile (isPart true)
    if spelling.isEmpty || (rest.drop spelling.length).head? != some '>' then none
    else (name? spelling).map fun name => (name, spelling.length + 2)
  | text =>
    match word? text with
    | some word =>
      let spelling := (text.drop (word.length + 1)).takeWhile (isPart false)
      if spelling.isEmpty then none
      else (expansion? ('!' :: word ++ ['!'])).bind fun start =>
        (name? spelling).map fun name => (start ++ name, word.length + 1 + spelling.length)
    | none =>
      let spelling := text.takeWhile (isPart false)
      (name? spelling).bind fun name =>
        if name.isEmpty then some (['!'], spelling.length)
        else (expansion? ['!']).map fun start => (start ++ name, spelling.length)

end Sentry.Yaml.Tag
