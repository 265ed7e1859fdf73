import Asn1.Mode
import Asn1.Tag
import Asn1.Text.T61
import Asn1.Unicode.Transcoder

/-!
Values of the text string types: which octets are valid in each type and what text they are.
-/

namespace Asn1

/-- A text string with the choices it was decoded with, which decide what its octets mean. -/
structure Text where
  tag : Tag
  body : Octets
  options : TextOptions
  deriving DecidableEq, Repr

namespace Text

def isNumeric (octet : UInt8) : Bool :=
  octet.toNat = 32 ∨ 48 ≤ octet.toNat ∧ octet.toNat ≤ 57

/-- The characters besides letters and digits that printable strings may contain. The asterisk is
not among those of the standard. -/
def printableMarks : List UInt8 :=
  [' ', '\'', '(', ')', '+', ',', '-', '.', '/', ':', '=', '?', '*'].map
    fun char => UInt8.ofNat char.toNat

def isPrintable (octet : UInt8) : Bool :=
  48 ≤ octet.toNat ∧ octet.toNat ≤ 57 ∨ 65 ≤ octet.toNat ∧ octet.toNat ≤ 90 ∨
    97 ≤ octet.toNat ∧ octet.toNat ≤ 122 ∨ octet ∈ printableMarks

def isAscii (octet : UInt8) : Bool := octet.toNat < 128

/-- How many octets of output each round of a check may produce. -/
def chunkSize : Nat := 1024

/-- Reading a character in UTF-8 never finds the output full. -/
theorem firstUtf8_ne_outputFull {octets : Octets} {error : TranscodeError}
    (found : Charset.first .utf8 octets = .error error) : error ≠ .outputFull := by
  simp only [Charset.first, Charset.firstUtf8] at found
  split at found <;> cases found <;> decide

/-- Checks UTF-8 by converting it in rounds of bounded output. -/
def checksUtf8 (octets : Octets) : Bool :=
  let round := Transcoder.fill ⟨.utf8⟩ (some chunkSize) octets
  match _outcome : round.error? with
  | none => true
  | some .outputFull => checksUtf8 round.left
  | some _ => false
termination_by octets.length
decreasing_by
  exact Transcoder.length_left_lt_of_outputFull (by decide) _outcome
    fun _ => firstUtf8_ne_outputFull

/-- Whether the octets are valid in the type of the text. Nothing is demanded of BMP and universal
strings, since no standard says clearly what they may contain. -/
def isValid (text : Text) : Bool :=
  if text.tag = .utf8String then !text.options.validateUtf8 || checksUtf8 text.body
  else if text.tag = .numericString then text.body.all isNumeric
  else if text.tag = .printableString then text.body.all isPrintable
  else if text.tag = .teletexString then
    text.options.teletexAsLatin1 || text.body.all T61.isDefined
  else if text.tag = .ia5String then text.body.all isAscii
  else text.tag = .universalString ∨ text.tag = .bmpString

def ofUtf8 (octets : Octets) : Except TranscodeError String :=
  match Utf8.decode octets with
  | .ok text => .ok text
  | .error _ => .error .invalidSequence

def ofT61 (octets : Octets) : Except TranscodeError String :=
  match octets.mapM T61.char? with
  | some chars => .ok (String.ofList chars)
  | none => .error .invalidSequence

/-- The text of octets in another encoding. The output gets at most twice as long as the input. -/
def transcode (source : Charset) (octets : Octets) : Except TranscodeError String :=
  let conversion := Transcoder.convert ⟨source⟩ (some (octets.length * 2)) [] octets
  match conversion.error? with
  | some error => .error error
  | none => ofUtf8 conversion.produced

/-- The text that a value stands for. A byte order mark is kept. -/
def decode (text : Text) : Except TranscodeError String :=
  if text.body = [] then .ok ""
  else if text.tag ∈ [.utf8String, .numericString, .printableString, .ia5String] then
    ofUtf8 text.body
  else if text.tag = .teletexString then
    if text.options.teletexAsLatin1 then transcode .latin1 text.body else ofT61 text.body
  else if text.tag = .universalString then transcode .utf32 text.body
  else if text.tag = .bmpString then transcode .utf16 text.body
  else .error .unsupported

end Text

end Asn1
