import Asn1.Hex.Message
import Asn1.Pem

/-!
The forms in which data to decode is given.
-/

namespace Asn1

inductive InputFormat where
  /-- The encoded octets themselves. -/
  | raw
  /-- Hexadecimal digits with any white space. -/
  | hex
  | pem
  deriving DecidableEq, Repr

namespace InputFormat

def name : InputFormat → String
  | raw => "der"
  | hex => "hex"
  | pem => "pem"

def ofName? : String → Option InputFormat
  | "der" => some raw
  | "hex" => some hex
  | "pem" => some pem
  | _ => none

def invalidMessage (name : String) : String := "invalid input format '" ++ name ++ "'"

inductive Defect where
  | hex (defect : Hex.Defect)
  | pem (defect : Pem.Defect)
  deriving DecidableEq, Repr

def Defect.message : Defect → String
  | .hex defect => "Invalid hex input: " ++ defect.message
  | .pem defect => "Invalid PEM input: " ++ defect.message

def isBlank (octet : UInt8) : Bool := octet.toNat ∈ [9, 10, 12, 13, 32]

def convert (format : InputFormat) (data : Octets) : Except Defect Octets :=
  match format with
  | raw => .ok data
  | hex =>
      match Hex.decode (data.filter fun octet => !isBlank octet) with
      | .ok octets => .ok octets
      | .error defect => .error (.hex defect)
  | pem =>
      match Pem.decode data with
      | .ok octets => .ok octets
      | .error defect => .error (.pem defect)

end InputFormat

end Asn1
