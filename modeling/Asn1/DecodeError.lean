/-!
The three kinds of failure a decoder reports.
-/

namespace Asn1

inductive DecodeError where
  /-- The data breaks a rule of the encoding or of a type. -/
  | invalidFormat
  | outOfBounds
  /-- A value was decoded but data is left after it. -/
  | unconsumedData
  deriving DecidableEq, Repr

def DecodeError.message : DecodeError → String
  | .invalidFormat => "invalid format"
  | .outOfBounds => "out of bounds"
  | .unconsumedData => "unconsumed data"

end Asn1
