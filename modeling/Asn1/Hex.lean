import Asn1.Octets

/-!
Hexadecimal digits: of octets, two digits each, and of numbers. Writing uses lower case, reading
takes either case.
-/

namespace Asn1.Hex

def digit (value : Nat) : Char := Nat.digitChar value

def pair (octet : UInt8) : List Char := [digit (octet.toNat / 16), digit (octet.toNat % 16)]

def encode (octets : Octets) : String := String.ofList (octets.flatMap pair)

def numeral (number : Nat) : List Char :=
  if number < 16 then [digit number] else numeral (number / 16) ++ [digit (number % 16)]

def padded (width number : Nat) : List Char :=
  List.replicate (width - (numeral number).length) '0' ++ numeral number

inductive Defect where
  /-- A digit has no partner. -/
  | oddLength
  /-- The octet at an index is no digit. -/
  | invalidDigit (octet : UInt8) (index : Nat)
  deriving DecidableEq, Repr

def value? (octet : UInt8) : Option Nat :=
  if 48 ≤ octet.toNat ∧ octet.toNat ≤ 57 then some (octet.toNat - 48)
  else if 65 ≤ octet.toNat ∧ octet.toNat ≤ 70 then some (octet.toNat - 55)
  else if 97 ≤ octet.toNat ∧ octet.toNat ≤ 102 then some (octet.toNat - 87)
  else none

/-- Reads pairs of digits, the first of which is at an index. -/
def pairs (index : Nat) : Octets → Except Defect Octets
  | [] => .ok []
  | [_] => .error .oddLength
  | high :: low :: rest =>
      match value? high, value? low with
      | none, _ => .error (.invalidDigit high index)
      | _, none => .error (.invalidDigit low (index + 1))
      | some highValue, some lowValue =>
          (pairs (index + 2) rest).map (UInt8.ofNat (highValue * 16 + lowValue) :: ·)

def decode (digits : Octets) : Except Defect Octets :=
  if digits.length % 2 = 1 then .error .oddLength else pairs 0 digits

theorem value?_digit {value : Nat} (small : value < 16) :
    value? (UInt8.ofNat (digit value).toNat) = some value := by
  have all : ∀ value : Fin 16, value? (UInt8.ofNat (digit value).toNat) = some value.val := by
    decide
  exact all ⟨value, small⟩

end Asn1.Hex
