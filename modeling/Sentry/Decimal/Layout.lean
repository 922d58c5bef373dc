import Sentry.Decimal.Shortest

/-! How the digits of a number are written out. Each output makes its choices
once, in a layout. -/
namespace Sentry

open Float.Model

/-- How numbers are written. Places are counted as in `0.ddd × 10 ^ place`. -/
structure Layout where
  /-- Places above this one are written with a point; all of them if there is no bound. -/
  above : Option Int
  /-- Places up to this one are written with a point; all of them if there is no bound. -/
  upTo : Option Int
  /-- Whole numbers end in a point and a zero. -/
  keepsPoint : Bool
  tie : Tie
  nan : String
  infinity : String

namespace Layout

/-- Numbers of this place are written with a point and not with an exponent. -/
def isPositional (layout : Layout) (place : Int) : Bool :=
  layout.above.all (· < place) && layout.upTo.all (place ≤ ·)

/-- Digits with the point at a place. -/
def positional (layout : Layout) (digits : List Char) (place : Int) : List Char :=
  if place ≤ 0 then
    '0' :: '.' :: List.replicate (-place).toNat '0' ++ digits
  else if digits.length ≤ place then
    digits ++ List.replicate (place.toNat - digits.length) '0'
      ++ (if layout.keepsPoint then ['.', '0'] else [])
  else
    digits.take place.toNat ++ '.' :: digits.drop place.toNat

/-- Digits with the point after the first one, and an exponent. -/
def scientific (digits : List Char) (place : Int) : List Char :=
  let fraction := match digits.drop 1 with
    | [] => []
    | rest => '.' :: rest
  digits.take 1 ++ fraction ++ 'e' :: (toString (place - 1)).toList

def decimal (layout : Layout) (d : Decimal) : List Char :=
  let digits := Nat.toDigits 10 d.digits
  let place := digits.length + d.exponent
  if layout.isPositional place then layout.positional digits place else scientific digits place

/-- The text of an unpacked number of the given format. -/
def number (layout : Layout) (format : Format) : UnpackedFloat → List Char
  | .notANumber => layout.nan.toList
  | .infinity sign => signed sign layout.infinity.toList
  | .zero sign => signed sign (if layout.keepsPoint then ['0', '.', '0'] else ['0'])
  | .finite sign significand exponent _ =>
    signed sign (layout.decimal ((Span.ofBinary format significand exponent).shortest layout.tie))
where
  /-- A minus sign in front of negative numbers. -/
  signed (sign : UnpackedFloat.Sign) (text : List Char) : List Char :=
    match sign with
    | .negative => '-' :: text
    | .positive => text

def single (layout : Layout) (x : Float32) : String :=
  String.ofList (layout.number .binary32 x.toModel.unpack)

def double (layout : Layout) (x : Float) : String :=
  String.ofList (layout.number .binary64 x.toModel.unpack)

end Layout

end Sentry
