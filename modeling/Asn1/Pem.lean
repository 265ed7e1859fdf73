import Asn1.Base64
import Asn1.Unicode.Utf8
import Asn1.Unicode.Visibility

/-!
PEM: octets in base 64 between two lines with a label. Only the first block of a file is read.
-/

namespace Asn1.Pem

/-- Why a file has no block that can be read. -/
inductive Defect where
  /-- There is no complete block. -/
  | malformedFraming
  /-- A part of the block is not UTF-8 behind its first octets. -/
  | notUtf8 (index : Nat) (defect : Utf8.Defect)
  | missingBegin
  | missingEnd
  | mismatch (beginLabel endLabel : String)
  | invalidData (defect : Base64.Defect)
  /-- A line of the headers has no colon. -/
  | invalidHeader (line : String)
  deriving DecidableEq, Repr

def utf8Message (index : Nat) : Utf8.Defect → String
  | .malformed length =>
      "invalid utf-8 sequence of " ++ Decimal.text length ++ " bytes from index "
        ++ Decimal.text index
  | .truncated => "incomplete utf-8 byte sequence from index " ++ Decimal.text index

def Defect.message : Defect → String
  | malformedFraming => "malformedframing"
  | notUtf8 index defect => "invalid utf-8 value: " ++ utf8Message index defect
  | missingBegin => "missing BEGIN tag"
  | missingEnd => "missing END tag"
  | mismatch beginLabel endLabel =>
      "mismatching BEGIN (\"" ++ beginLabel ++ "\") and END (\"" ++ endLabel ++ "\") tags"
  | invalidData defect => "invalid data: " ++ defect.message
  | invalidHeader line => "invalid header: " ++ line

def ascii (chars : List Char) : Octets := chars.map fun char => UInt8.ofNat char.toNat

def dashes : Octets := ascii ['-', '-', '-', '-', '-']

def beginMark : Octets := dashes ++ ascii ['B', 'E', 'G', 'I', 'N', ' ']

def endMark : Octets := dashes ++ ascii ['E', 'N', 'D', ' ']

def blankLine : Octets := [10, 10]

def wideBlankLine : Octets := [13, 10, 13, 10]

/-- What follows a mark of which `wanted` is still to come. The search never goes back: an octet
that does not match is not tried again as the first octet of the mark. -/
def after? (mark wanted : Octets) : Octets → Option Octets
  | [] => if wanted = [] then some [] else none
  | octet :: rest =>
      match wanted with
      | [] => some (octet :: rest)
      | next :: further => if octet = next then after? mark further rest else after? mark mark rest

/-- What stands before and behind the first mark that is found. -/
def cut? (mark octets : Octets) : Option (Octets × Octets) :=
  (after? mark mark octets).map fun rest =>
    (octets.take (octets.length - rest.length - mark.length), rest)

/-- Whether an octet is white space between the first line and the data. -/
def isBlank (octet : UInt8) : Bool := octet.toNat ∈ [9, 10, 13, 32]

/-- The parts of a block as they stand in a file. -/
structure Block where
  beginLabel : Octets
  headers : Octets
  data : Octets
  endLabel : Octets

def splitHeaders (payload : Octets) : Octets × Octets :=
  match cut? blankLine payload with
  | some parts => parts
  | none => (cut? wideBlankLine payload).getD ([], payload)

def find? (file : Octets) : Option Block := do
  let (_, opened) ← cut? beginMark file
  let (beginLabel, body) ← cut? dashes opened
  let (payload, closed) ← cut? endMark (body.dropWhile isBlank)
  let (endLabel, _) ← cut? dashes closed
  let (headers, data) := splitHeaders payload
  return { beginLabel, headers, data, endLabel }

def textOf (octets : Octets) : Except Defect String :=
  match Utf8.decode octets with
  | .ok text => .ok text
  | .error (index, defect) => .error (.notUtf8 index defect)

/-- The octets written by the data of a block, in which white space does not count. -/
def contentsOf (data : String) : Except Defect Octets :=
  match Base64.decode (Utf8.encode (data.toList.filter fun char => !Unicode.isBlank char)) with
  | .ok octets => .ok octets
  | .error defect => .error (.invalidData defect)

/-- The lines of a text. A carriage return before the end of a line is not part of it. -/
def linesOf (text : List Char) : List (List Char) :=
  if _ : text = [] then []
  else
    let line := text.takeWhile (· ≠ '\n')
    let bare := if line.getLast? = some '\r' ∧ line.length < text.length then line.dropLast
      else line
    bare :: linesOf (text.dropWhile (· ≠ '\n')).tail
termination_by text.length
decreasing_by
  have shorter := (List.dropWhile_suffix (l := text) (· ≠ '\n')).length_le
  have positive : 0 < text.length := List.length_pos_iff.2 ‹¬text = []›
  simp only [List.length_tail]
  omega

def checkHeaders (headers : String) : Except Defect Unit :=
  match (linesOf headers.toList).find? fun line => ':' ∉ line with
  | some line => .error (.invalidHeader (String.ofList line))
  | none => .ok ()

/-- Reads a block: first its labels, then the data, then the headers. -/
def Block.decode (block : Block) : Except Defect Octets := do
  let beginLabel ← textOf block.beginLabel
  if beginLabel = "" then throw .missingBegin
  let endLabel ← textOf block.endLabel
  if endLabel = "" then throw .missingEnd
  if beginLabel ≠ endLabel then throw (.mismatch beginLabel endLabel)
  let contents ← contentsOf (← textOf block.data)
  checkHeaders (← textOf block.headers)
  return contents

def decode (file : Octets) : Except Defect Octets :=
  match find? file with
  | some block => block.decode
  | none => .error .malformedFraming

end Asn1.Pem
