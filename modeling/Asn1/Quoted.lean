import Asn1.Hex
import Asn1.Unicode.Visibility

/-!
Text in quotation marks, with escapes for all characters that cannot be seen.
-/

namespace Asn1.Quoted

/-- Writes a character of quoted text. A quotation mark that ends the text is escaped, the other
one is not. -/
def escape (marks : List Char) (char : Char) : List Char :=
  if char = '\x00' then ['\\', '0']
  else if char = '\t' then ['\\', 't']
  else if char = '\n' then ['\\', 'n']
  else if char = '\r' then ['\\', 'r']
  else if char = '\\' then ['\\', '\\']
  else if char ∈ marks then ['\\', char]
  else if Unicode.isHidden char then ['\\', 'u', '\x7b'] ++ Hex.numeral char.toNat ++ ['\x7d']
  else [char]

def enclose (mark : Char) (chars : List Char) : List Char := mark :: chars ++ [mark]

def string (text : String) : String :=
  String.ofList (enclose '"' (text.toList.flatMap (escape ['"'])))

def char (char : Char) : String := String.ofList (enclose '\'' (escape ['\''] char))

end Asn1.Quoted
