import Asn1.Decimal
import Asn1.Quoted

/-!
What is said of hexadecimal digits that write no octets.
-/

namespace Asn1.Hex.Defect

/-- The words shown for a defect. The octet that is no digit is shown as the character with the
same code point. -/
def message : Defect → String
  | .oddLength => "Odd number of digits"
  | .invalidDigit octet index =>
      "Invalid character " ++ Quoted.char (Char.ofNat octet.toNat) ++ " at position "
        ++ Decimal.text index

end Asn1.Hex.Defect
