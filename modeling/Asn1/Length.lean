import Asn1.Mode
import Asn1.Scan

/-!
The length octets of an encoding.
-/

namespace Asn1

inductive Length where
  | definite (count : Nat)
  /-- The content goes on until an end marker. -/
  | indefinite
  deriving DecidableEq, Repr

namespace Length

def isZero : Length → Bool
  | .definite 0 => true
  | _ => false

/-- The largest number of octets in which a length is written: those of a number of 64 bits. -/
def widthLimit : Nat := 8

/-- Moves the bits of a number up and puts an octet below them. The eight highest bits are lost. -/
def append (count : UInt64) (octet : UInt8) : UInt64 := count <<< 8 ||| octet.toUInt64

/-- The number that octets write, as far as it has 64 bits. -/
def word (written : Octets) : UInt64 := written.foldl append 0

theorem toNat_shiftRight_eight (count : UInt64) : (count >>> 8).toNat = count.toNat / 256 := by
  rw [UInt64.toNat_shiftRight]
  exact Nat.shiftRight_eq_div_pow count.toNat 8

/-- How many octets of a number are left when the leading zeros are not counted. -/
def width (count : UInt64) : Nat :=
  if count = 0 then 0 else width (count >>> 8) + 1
termination_by count.toNat
decreasing_by
  have positive : count.toNat ≠ 0 := mt (@UInt64.toNat_inj count 0).mp (by assumption)
  rw [toNat_shiftRight_eight]
  omega

/-- Whether a number that is written in long form, in so many octets, is too large for the short
form and needs them all. -/
def isShortest (count : UInt64) (written : Nat) : Bool :=
  0x80 ≤ count && width count = written

/-- Takes the length octets. Distinguished rules only allow the shortest form of a definite
length. -/
def scan (mode : Mode) : Scan Length := do
  let first ← Scan.octet
  if first = 0xff then
    throw .invalidFormat
  else if first < 0x80 then
    return .definite first.toNat
  else if first = 0x80 then
    if mode = .der then throw .invalidFormat else return .indefinite
  else if widthLimit < first.toNat - 128 then
    throw .invalidFormat
  else
    let written ← Scan.octets (first.toNat - 128)
    let count := word written
    if mode = .der ∧ isShortest count written.length = false then throw .invalidFormat
    else return .definite count.toNat

def encode (count : Nat) : Octets :=
  if count < 128 then
    [UInt8.ofNat count]
  else
    let written := Octets.ofNat count
    UInt8.ofNat (128 + written.length) :: written

theorem forward_scan (mode : Mode) : Scan.Forward (scan mode) := by
  refine Scan.forward_bind Scan.forward_octet fun first => ?_
  split
  · exact Scan.forward_throw _
  split
  · exact Scan.forward_pure _
  split
  · split
    · exact Scan.forward_throw _
    · exact Scan.forward_pure _
  split
  · exact Scan.forward_throw _
  refine Scan.forward_bind (Scan.forward_octets _) fun written => ?_
  simp only
  split
  · exact Scan.forward_throw _
  · exact Scan.forward_pure _

end Length

end Asn1
