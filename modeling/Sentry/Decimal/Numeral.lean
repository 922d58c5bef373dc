/-! Numbers in decimal notation: an optional sign, digits with at most one point
among or beside them, and an optional exponent. The value is rounded once, to the
nearest binary64 number. -/
namespace Sentry

/-- The number `± digits × 10 ^ exponent`. -/
structure Numeral where
  negative : Bool
  digits : Nat
  exponent : Int
  deriving DecidableEq

namespace Numeral

def ofDigits (digits : List Char) : Nat :=
  Nat.ofDigitChars 10 digits 0

/-- A sign, if there is one, and what follows. -/
def splitSign : List Char → Bool × List Char
  | '-' :: rest => (true, rest)
  | '+' :: rest => (false, rest)
  | rest => (false, rest)

/-- The exponent that ends a numeral; it is zero if there is none. -/
def exponent? : List Char → Option Int
  | [] => some 0
  | mark :: rest =>
    if mark = 'e' ∨ mark = 'E' then
      let (negative, digits) := splitSign rest
      if digits.isEmpty || !digits.all Char.isDigit then none
      else if negative then some (-(ofDigits digits : Int)) else some (ofDigits digits)
    else none

/-- The digits of a fraction, and what follows. -/
def splitFraction : List Char → List Char × List Char
  | '.' :: rest => (rest.takeWhile Char.isDigit, rest.dropWhile Char.isDigit)
  | rest => ([], rest)

def parse? (text : List Char) : Option Numeral :=
  let (negative, unsigned) := splitSign text
  let whole := unsigned.takeWhile Char.isDigit
  let (fraction, rest) := splitFraction (unsigned.dropWhile Char.isDigit)
  if (whole ++ fraction).isEmpty then none
  else (exponent? rest).map fun exponent =>
    ⟨negative, ofDigits (whole ++ fraction), exponent - fraction.length⟩

/-- The nearest binary64 number; infinite if the numeral is too large. -/
def value (n : Numeral) : Float :=
  let magnitude := Float.ofModel (Float.Model.ofScientific n.digits n.exponent)
  if n.negative then -magnitude else magnitude

end Numeral

end Sentry
