import Asn1.Scan

/-!
Fields of fixed width and fields that are preceded by their length.
-/

namespace Asn1

/-- The order in which the octets of a number are written. -/
inductive ByteOrder where
  | big
  | little
  deriving DecidableEq, Repr

def ByteOrder.toNat : ByteOrder → Octets → Nat
  | .big, octets => octets.toNat
  | .little, octets => Octets.toNat octets.reverse

namespace Scan

def number (order : ByteOrder) (width : Nat) : Scan Nat := do
  let written ← octets width
  return order.toNat written

def field (order : ByteOrder) (width : Nat) : Scan Octets := do
  let length ← number order width
  octets length

/-- Takes octets whose number is written before them and has to lie within bounds. -/
def fieldWithin (order : ByteOrder) (width low high : Nat) : Scan Octets := do
  let length ← number order width
  if length < low ∨ high < length then throw .invalidFormat else octets length

theorem forward_number (order : ByteOrder) (width : Nat) : Forward (number order width) :=
  forward_bind (forward_octets width) fun _ => forward_pure _

end Scan

end Asn1
