/-! An order of numbers that leaves none out. The comparison operators have no
place for a NaN; where a choice among numbers has to be made all the same, these
rules make it. -/
namespace Sentry

/-- The larger of two numbers; a NaN gives way to the other one. -/
def larger (a b : Float) : Float :=
  if a < b then b else if a.isNaN then b else a

def larger32 (a b : Float32) : Float32 :=
  if a < b then b else if a.isNaN then b else a

/-- The bit that sets negative numbers apart. -/
def signBit : Nat :=
  0x8000000000000000

/-- The place of a number in the total order of binary64: negative numbers by falling magnitude,
then the others by rising magnitude. -/
def orderKey (x : Float) : Int :=
  let bits := x.toBits.toNat
  if bits < signBit then bits else signBit - 1 - bits

end Sentry
