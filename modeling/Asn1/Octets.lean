/-!
Octet strings and the numbers they write in base 256, most significant octet first.
-/

namespace Asn1

/-- A string of octets. -/
abbrev Octets := List UInt8

namespace Octets

def toNat (octets : Octets) : Nat :=
  octets.foldl (fun number octet => number * 256 + octet.toNat) 0

/-- The shortest octets that write a number: no leading zero octet, none at all for zero. -/
def ofNat (number : Nat) : Octets :=
  if number = 0 then [] else ofNat (number / 256) ++ [UInt8.ofNat number]

@[simp]
theorem toNat_nil : toNat [] = 0 := rfl

@[simp]
theorem toNat_concat (octets : Octets) (octet : UInt8) :
    toNat (octets ++ [octet]) = toNat octets * 256 + octet.toNat := by
  simp [toNat]

@[simp]
theorem toNat_ofNat (number : Nat) : toNat (ofNat number) = number := by
  fun_induction ofNat number with
  | case1 => simp
  | case2 number nonzero inductionHypothesis =>
      simp only [toNat_concat, inductionHypothesis, UInt8.toNat_ofNat']
      omega

end Octets

end Asn1
