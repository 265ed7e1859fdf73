import Asn1.Decimal
import Asn1.Octets

/-!
Object identifiers. They are kept encoded: the first two components share an octet, each further
component is a group of base-128 digits in which every octet but the last has its high bit set.
-/

namespace Asn1

/-- The content octets of an object identifier, which need not be valid. -/
structure ObjectId where
  octets : Octets
  deriving DecidableEq, Repr

namespace ObjectId

def componentLimit : Nat := 0x100000000

/-- Appends the seven low bits of an octet to a number. It is refused if one of the seven highest
bits of the number is set, since that bit would be lost. -/
def extend? (number : UInt32) (octet : UInt8) : Option UInt32 :=
  if (0xffffffff : UInt32) >>> 7 < number then none
  else some (number <<< 7 ||| (octet &&& 0x7f).toUInt32)

/-- Reads the groups of base-128 digits. `open?` is the value of a group that has begun. -/
def groups? (open? : Option UInt32) : Octets → Option (List UInt32)
  | [] => if open?.isNone then some [] else none
  | octet :: rest =>
      match extend? (open?.getD 0) octet with
      | none => none
      | some value =>
          if octet &&& 0x80 = 0 then (groups? none rest).map (value :: ·)
          else groups? (some value) rest

/-- The components, if the octets are complete and each component is small enough. -/
def components? (id : ObjectId) : Option (List UInt32) :=
  match id.octets with
  | [] => none
  | head :: rest =>
      (groups? none rest).map
        (UInt32.ofNat (head.toNat / 40) :: UInt32.ofNat (head.toNat % 40) :: ·)

def isValid (id : ObjectId) : Bool := id.components?.isSome

/-- The leading digits of a group, all with the high bit set. -/
def continued (number : Nat) : Octets :=
  if number = 0 then [] else continued (number / 128) ++ [UInt8.ofNat (128 + number % 128)]

def group (component : UInt32) : Octets :=
  continued (component.toNat / 128) ++ [UInt8.ofNat (component.toNat % 128)]

/-- Encodes components. The first two have to fit into their octet. -/
def ofComponents? : List UInt32 → Option ObjectId
  | first :: second :: further =>
      let head := first.toNat * 40 + second.toNat
      if second.toNat < 40 ∧ head < 256 then
        some ⟨UInt8.ofNat head :: further.flatMap group⟩
      else
        none
  | _ => none

def splitAtDots : List Char → List (List Char)
  | [] => [[]]
  | char :: rest =>
      if char = '.' then
        [] :: splitAtDots rest
      else
        match splitAtDots rest with
        | [] => [[char]]
        | part :: parts => (char :: part) :: parts

/-- Reads a component in decimal digits, which may follow a plus sign. -/
def component? (part : List Char) : Option UInt32 := do
  let value ← Decimal.value? (if part.head? = some '+' then part.tail else part)
  if fits : value < componentLimit then some (UInt32.ofNatLT value fits) else none

def ofDotted? (text : String) : Option ObjectId := do
  ofComponents? (← (splitAtDots text.toList).mapM component?)

def dotted (id : ObjectId) : String :=
  match id.components? with
  | some components =>
      ".".intercalate (components.map fun component => Decimal.text component.toNat)
  | none => "[invalid OID]"

def invalidMessage : String := "invalid object identifier"

end ObjectId

end Asn1
