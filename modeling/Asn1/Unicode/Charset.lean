import Asn1.Unicode.Utf8

/-!
Character encodings and how the first character of octets is read in each.
-/

namespace Asn1

inductive Charset where
  | utf8
  /-- ISO 8859-1: each octet is the code point of the same value. -/
  | latin1
  /-- UTF-16, most significant octet first. -/
  | utf16
  /-- UTF-32, most significant octet first. -/
  | utf32
  deriving DecidableEq, Repr

inductive TranscodeError where
  /-- There is no conversion between the two encodings. -/
  | unsupported
  /-- The input is not valid in its encoding. -/
  | invalidSequence
  /-- The input ends within a character. -/
  | incompleteSequence
  /-- The next character does not fit into the output. -/
  | outputFull
  deriving DecidableEq, Repr

def TranscodeError.message : TranscodeError → String
  | .unsupported => "unsupported conversion"
  | .invalidSequence => "invalid character sequence"
  | .incompleteSequence => "incomplete character sequence"
  | .outputFull => "output buffer full"

/-- The character with a code point, unless it is a surrogate or too large. -/
def scalar? (codePoint : Nat) : Option Char :=
  if valid : codePoint.isValidChar then some (Char.ofNatAux codePoint valid) else none

namespace Charset

def name : Charset → String
  | utf8 => "UTF-8"
  | latin1 => "ISO-8859-1"
  | utf16 => "UTF-16BE"
  | utf32 => "UTF-32BE"

/-- A character and the number of octets that write it. -/
structure Sized where
  char : Char
  size : Nat
  size_pos : 0 < size

def sized (size : Nat) (size_pos : 0 < size) : Option Char → Except TranscodeError Sized
  | some char => .ok ⟨char, size, size_pos⟩
  | none => .error .invalidSequence

/-- Reads a character in UTF-8. No character has more than four octets. -/
def firstUtf8 (octets : Octets) : Except TranscodeError Sized :=
  match Utf8.read (octets.take 4) with
  | (char :: _, _) => .ok ⟨char, char.utf8Size, char.utf8Size_pos⟩
  | ([], some (.malformed _)) => .error .invalidSequence
  | ([], _) => .error .incompleteSequence

def firstLatin1 : Octets → Except TranscodeError Sized
  | [] => .error .incompleteSequence
  | octet :: _ => .ok ⟨Char.ofNat octet.toNat, 1, by decide⟩

/-- Reads a character in UTF-16. A high surrogate needs a low one behind it. -/
def firstUtf16 : Octets → Except TranscodeError Sized
  | high :: low :: rest =>
      let unit := high.toNat * 256 + low.toNat
      if 0xd800 ≤ unit ∧ unit < 0xdc00 then
        match rest with
        | nextHigh :: nextLow :: _ =>
            let next := nextHigh.toNat * 256 + nextLow.toNat
            if 0xdc00 ≤ next ∧ next < 0xe000 then
              sized 4 (by decide) (scalar? (0x10000 + (unit - 0xd800) * 0x400 + (next - 0xdc00)))
            else
              .error .invalidSequence
        | _ => .error .incompleteSequence
      else
        sized 2 (by decide) (scalar? unit)
  | _ => .error .incompleteSequence

def firstUtf32 : Octets → Except TranscodeError Sized
  | a :: b :: c :: d :: _ => sized 4 (by decide) (scalar? (Octets.toNat [a, b, c, d]))
  | _ => .error .incompleteSequence

def first : Charset → Octets → Except TranscodeError Sized
  | utf8 => firstUtf8
  | latin1 => firstLatin1
  | utf16 => firstUtf16
  | utf32 => firstUtf32

end Charset

end Asn1
