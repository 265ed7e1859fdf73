import Asn1.Length
import Asn1.Value

/-!
Where the values nested in a value are in the data.
-/

namespace Asn1.Value

/-- A value, how deep it is nested and where its content starts. -/
structure Place where
  depth : Nat
  start : Nat
  value : Value

def headerSize (encoding : Octets) : Nat :=
  encoding.length - (Scan.left ((Identifier.scan *> Length.scan .ber) encoding)).length

mutual

/-- The value and then everything nested in it, in order, where the value's content starts at
`start`. -/
def outline (depth start : Nat) : Value → List Place
  | constructed tag body elements =>
      ⟨depth, start, constructed tag body elements⟩ :: outlines (depth + 1) start body elements
  | value => [⟨depth, start, value⟩]

/-- The same for values whose encodings follow one another from `start`. -/
def outlines (depth start : Nat) (content : Octets) : List Value → List Place
  | [] => []
  | value :: rest =>
      let size := headerSize content
      let next := size + value.body.length
      outline depth (start + size) value ++ outlines depth (start + next) (content.drop next) rest

end

end Asn1.Value
