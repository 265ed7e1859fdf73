import Asn1.Octets

/-!
Reading and writing UTF-8. Reading stops at the first place that is not well-formed and says what
is wrong there.
-/

namespace Asn1.Utf8

inductive Defect where
  /-- The first `length` octets belong to no character. -/
  | malformed (length : Nat)
  /-- The octets end within a character. -/
  | truncated
  deriving DecidableEq, Repr

/-- What a leading octet announces: the number of octets and the bounds of the second one. -/
structure Lead where
  width : Nat
  low : Nat
  high : Nat

/-- Reads a leading octet of a character of more than one octet. The bounds leave out surrogates,
what could be written shorter, and what is beyond U+10FFFF. -/
def lead? (octet : Nat) : Option Lead :=
  if octet < 0xc2 then none
  else if octet < 0xe0 then some ⟨2, 0x80, 0xbf⟩
  else if octet = 0xe0 then some ⟨3, 0xa0, 0xbf⟩
  else if octet = 0xed then some ⟨3, 0x80, 0x9f⟩
  else if octet < 0xf0 then some ⟨3, 0x80, 0xbf⟩
  else if octet = 0xf0 then some ⟨4, 0x90, 0xbf⟩
  else if octet < 0xf4 then some ⟨4, 0x80, 0xbf⟩
  else if octet = 0xf4 then some ⟨4, 0x80, 0x8f⟩
  else none

def isContinuation (octet : UInt8) : Bool := octet.toNat / 64 = 2

def payload (octet : UInt8) : Nat := octet.toNat % 64

def first (leading : UInt8) (rest : Octets) : Except Defect Char :=
  if leading.toNat < 0x80 then
    .ok (Char.ofNat leading.toNat)
  else
    match lead? leading.toNat with
    | none => .error (.malformed 1)
    | some lead =>
        match rest with
        | [] => .error .truncated
        | second :: rest =>
            if second.toNat < lead.low ∨ lead.high < second.toNat then
              .error (.malformed 1)
            else if lead.width = 2 then
              .ok (Char.ofNat (leading.toNat % 32 * 64 + payload second))
            else
              match rest with
              | [] => .error .truncated
              | third :: rest =>
                  if isContinuation third = false then
                    .error (.malformed 2)
                  else if lead.width = 3 then
                    .ok (Char.ofNat (leading.toNat % 16 * 4096 + payload second * 64
                      + payload third))
                  else
                    match rest with
                    | [] => .error .truncated
                    | fourth :: _ =>
                        if isContinuation fourth = false then
                          .error (.malformed 3)
                        else
                          .ok (Char.ofNat (leading.toNat % 8 * 262144 + payload second * 4096
                            + payload third * 64 + payload fourth))

def read : Octets → List Char × Option Defect
  | [] => ([], none)
  | leading :: rest =>
      match first leading rest with
      | .error defect => ([], some defect)
      | .ok char =>
          let later := read ((leading :: rest).drop char.utf8Size)
          (char :: later.1, later.2)
termination_by octets => octets.length
decreasing_by
  have positive := char.utf8Size_pos
  simp only [List.length_drop, List.length_cons]
  omega

def encode (chars : List Char) : Octets := chars.flatMap String.utf8EncodeChar

/-- The text written by octets, or the number of octets before the first defect, and that
defect. -/
def decode (octets : Octets) : Except (Nat × Defect) String :=
  match read octets with
  | (chars, none) => .ok (String.ofList chars)
  | (chars, some defect) => .error ((encode chars).length, defect)

def isWellFormed (octets : Octets) : Bool := (read octets).2.isNone

def ofString (text : String) : Octets := encode text.toList

@[simp]
theorem read_nil : read [] = ([], none) := by
  rw [read]

@[simp]
theorem encode_nil : encode [] = [] := rfl

@[simp]
theorem encode_cons (char : Char) (chars : List Char) :
    encode (char :: chars) = String.utf8EncodeChar char ++ encode chars := rfl

@[simp]
theorem encode_append (front back : List Char) :
    encode (front ++ back) = encode front ++ encode back := List.flatMap_append

end Asn1.Utf8
