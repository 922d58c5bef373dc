/-! Two widths of binary numbers. Positions, speeds and delays are binary32,
clocks are binary64. Both conversions go through the unpacked value, so that what
they do to a significand can be reasoned about. -/
namespace Sentry

open Float.Model

/-- The nearest value that fits a format; special values are kept. -/
def refit (format : Format) : UnpackedFloat → UnpackedFloat
  | .finite sign significand exponent _ => UnpackedFloat.round format sign significand exponent
  | special => special

/-- The binary64 number equal to a binary32 number. -/
def widen (x : Float32) : Float :=
  .ofModel (Float.Model.pack (refit .binary64 x.toModel.unpack))

/-- The binary32 number nearest to a binary64 number. -/
def narrow (x : Float) : Float32 :=
  .ofModel (Float32.Model.pack (refit .binary32 x.toModel.unpack))

end Sentry
