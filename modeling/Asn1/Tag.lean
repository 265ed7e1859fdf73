import Asn1.Scan

/-!
Tags, and the identifier octet that starts an encoding. Only tag numbers that fit into one octet
are supported.
-/

namespace Asn1

inductive TagClass where
  | universal
  | application
  | contextSpecific
  | privateUse
  deriving DecidableEq, Repr

namespace TagClass

def ofBits : Nat → TagClass
  | 0 => universal
  | 1 => application
  | 2 => contextSpecific
  | _ => privateUse

def bits : TagClass → Nat
  | universal => 0
  | application => 1
  | contextSpecific => 2
  | privateUse => 3

def name : TagClass → String
  | universal => "UNIVERSAL"
  | application => "APPLICATION"
  | contextSpecific => "CONTEXT-SPECIFIC"
  | privateUse => "PRIVATE"

@[simp]
theorem ofBits_bits (tagClass : TagClass) : ofBits tagClass.bits = tagClass := by
  cases tagClass <;> rfl

theorem bits_lt (tagClass : TagClass) : tagClass.bits < 4 := by
  cases tagClass <;> decide

end TagClass

/-- A tag: a class and a number that fits into one identifier octet. -/
structure Tag where
  tagClass : TagClass
  number : Fin 31
  deriving DecidableEq, Repr

namespace Tag

abbrev ofUniversal (number : Fin 31) : Tag := ⟨.universal, number⟩

def ofNumber? (tagClass : TagClass) (number : Nat) : Option Tag :=
  if fits : number < 31 then some ⟨tagClass, ⟨number, fits⟩⟩ else none

abbrev endOfContent : Tag := ofUniversal 0
abbrev boolean : Tag := ofUniversal 1
abbrev bitString : Tag := ofUniversal 3
abbrev octetString : Tag := ofUniversal 4
abbrev null : Tag := ofUniversal 5
abbrev objectId : Tag := ofUniversal 6
abbrev utf8String : Tag := ofUniversal 12
abbrev sequence : Tag := ofUniversal 16
abbrev set : Tag := ofUniversal 17
abbrev numericString : Tag := ofUniversal 18
abbrev printableString : Tag := ofUniversal 19
abbrev teletexString : Tag := ofUniversal 20
abbrev ia5String : Tag := ofUniversal 22
abbrev utcTime : Tag := ofUniversal 23
abbrev universalString : Tag := ofUniversal 28
abbrev bmpString : Tag := ofUniversal 30

def isUniversal (tag : Tag) : Bool := tag.tagClass = .universal

def isConstructedType (tag : Tag) : Bool := tag = sequence ∨ tag = set

def textTypes : List Tag :=
  [utf8String, numericString, printableString, teletexString, ia5String, universalString,
    bmpString]

def isTextType (tag : Tag) : Bool := tag ∈ textTypes

/-- Whether values with this universal tag may be constructed under basic rules. -/
def canBeConstructed (tag : Tag) : Bool :=
  tag.isConstructedType || tag.isTextType || tag = bitString || tag = octetString

def universalName? (tag : Tag) : Option String :=
  if tag.isUniversal then
    match tag.number.val with
    | 0 => some "End of Content"
    | 1 => some "Boolean"
    | 2 => some "Integer"
    | 3 => some "Bit String"
    | 4 => some "Octet String"
    | 5 => some "Null"
    | 6 => some "OID"
    | 10 => some "Enumeration"
    | 12 => some "UTF-8 String"
    | 13 => some "Relative OID"
    | 16 => some "Sequence"
    | 17 => some "Set"
    | 18 => some "Numeric String"
    | 19 => some "Printable String"
    | 20 => some "Teletex String"
    | 22 => some "ASCII String"
    | 23 => some "UTC Time"
    | 28 => some "UTF-32 String"
    | 30 => some "BMP String"
    | _ => none
  else
    none

/-- Describes a type: by its name if it has one, otherwise by class and number. -/
def description (tag : Tag) : String :=
  match tag.universalName? with
  | some name => name
  | none => tag.tagClass.name ++ " " ++ Nat.repr tag.number.val

def octet (tag : Tag) : UInt8 := UInt8.ofNat (tag.tagClass.bits * 64 + tag.number.val)

end Tag

structure Identifier where
  tag : Tag
  /-- Whether the content is a series of encodings. -/
  constructed : Bool
  deriving DecidableEq, Repr

namespace Identifier

/-- Reads an identifier octet. The number 31 announces a longer form, which is not supported. -/
def ofOctet? (octet : UInt8) : Option Identifier :=
  (Tag.ofNumber? (.ofBits (octet.toNat / 64)) (octet.toNat % 32)).map
    fun tag => { tag, constructed := octet.toNat / 32 % 2 = 1 }

def octet (identifier : Identifier) : UInt8 :=
  UInt8.ofNat (identifier.tag.tagClass.bits * 64 + identifier.constructed.toNat * 32
    + identifier.tag.number.val)

def scan : Scan Identifier := do
  let octet ← Scan.octet
  Scan.accept (ofOctet? octet)

@[simp]
theorem ofOctet?_octet (identifier : Identifier) :
    ofOctet? identifier.octet = some identifier := by
  obtain ⟨⟨tagClass, number⟩, constructed⟩ := identifier
  have classBound := tagClass.bits_lt
  have numberBound := number.isLt
  have flag : constructed.toNat < 2 := by cases constructed <;> decide
  have written : (Identifier.octet ⟨⟨tagClass, number⟩, constructed⟩).toNat
      = tagClass.bits * 64 + constructed.toNat * 32 + number.val := by
    simp only [octet, UInt8.toNat_ofNat']
    omega
  have classPart : (tagClass.bits * 64 + constructed.toNat * 32 + number.val) / 64
      = tagClass.bits := by omega
  have numberPart : (tagClass.bits * 64 + constructed.toNat * 32 + number.val) % 32
      = number.val := by omega
  have flagPart : (tagClass.bits * 64 + constructed.toNat * 32 + number.val) / 32 % 2
      = constructed.toNat := by omega
  simp [ofOctet?, Tag.ofNumber?, written, classPart, numberPart, flagPart]

theorem progress_scan : Scan.Progress scan :=
  Scan.progress_bind Scan.progress_octet fun _ => Scan.forward_accept _

theorem forward_scan : Scan.Forward scan :=
  Scan.forward_bind Scan.forward_octet fun _ => Scan.forward_accept _

end Identifier

end Asn1
