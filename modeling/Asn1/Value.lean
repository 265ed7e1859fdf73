import Asn1.ObjectId
import Asn1.Text
import Asn1.UtcTime

/-!
Decoded values. Equality compares kind, tag, content octets and elements, and whatever has been
read from the content.
-/

namespace Asn1

inductive Value where
  /-- A primitive value that is not interpreted. -/
  | generic (tag : Tag) (body : Octets)
  /-- A value made up of other values. Content of indefinite length includes its end marker. -/
  | constructed (tag : Tag) (body : Octets) (elements : List Value)
  /-- A truth value; any octet but zero is true. -/
  | boolean (octet : UInt8)
  | objectId (id : ObjectId)
  | text (string : Text)
  | utcTime (body : Octets) (time : UtcTime)
  deriving Repr

namespace Value

def tag : Value → Tag
  | generic tag _ => tag
  | constructed tag _ _ => tag
  | boolean _ => .boolean
  | objectId _ => .objectId
  | text string => string.tag
  | utcTime _ _ => .utcTime

def body : Value → Octets
  | generic _ body => body
  | constructed _ body _ => body
  | boolean octet => [octet]
  | objectId id => id.octets
  | text string => string.body
  | utcTime body _ => body

def isConstructed : Value → Bool
  | constructed _ _ _ => true
  | _ => false

def elements : Value → List Value
  | constructed _ _ elements => elements
  | _ => []

/-- Whether the value is of a text type, constructed or not. -/
def isText (value : Value) : Bool := value.tag.isTextType

def description (value : Value) : String := value.tag.description

mutual

def beq : Value → Value → Bool
  | generic tag body, generic tag' body' => tag = tag' ∧ body = body'
  | constructed tag body elements, constructed tag' body' elements' =>
      (tag = tag' ∧ body = body') && beqList elements elements'
  | boolean octet, boolean octet' => octet = octet'
  | objectId id, objectId id' => id = id'
  | text string, text string' => string = string'
  | utcTime body time, utcTime body' time' => body = body' ∧ time = time'
  | _, _ => false

def beqList : List Value → List Value → Bool
  | [], [] => true
  | value :: rest, value' :: rest' => beq value value' && beqList rest rest'
  | _, _ => false

end

mutual

theorem eq_of_beq : (left right : Value) → beq left right = true → left = right
  | generic _ _, generic _ _, equal => by simpa [beq] using equal
  | constructed _ _ elements, constructed _ _ elements', equal => by
      simp only [beq, Bool.and_eq_true, decide_eq_true_eq] at equal
      rw [equal.1.1, equal.1.2, eq_of_beqList elements elements' equal.2]
  | boolean _, boolean _, equal => by simpa [beq] using equal
  | objectId _, objectId _, equal => by simpa [beq] using equal
  | text _, text _, equal => by simpa [beq] using equal
  | utcTime _ _, utcTime _ _, equal => by simpa [beq] using equal

theorem eq_of_beqList : (left right : List Value) → beqList left right = true → left = right
  | [], [], _ => rfl
  | value :: rest, value' :: rest', equal => by
      simp only [beqList, Bool.and_eq_true] at equal
      rw [eq_of_beq value value' equal.1, eq_of_beqList rest rest' equal.2]

end

mutual

theorem beq_self : (value : Value) → beq value value = true
  | generic _ _ => by simp [beq]
  | constructed _ _ elements => by simp [beq, beqList_self elements]
  | boolean _ => by simp [beq]
  | objectId _ => by simp [beq]
  | text _ => by simp [beq]
  | utcTime _ _ => by simp [beq]

theorem beqList_self : (values : List Value) → beqList values values = true
  | [] => rfl
  | value :: rest => by simp [beqList, beq_self value, beqList_self rest]

end

instance : DecidableEq Value := fun left right =>
  if equal : beq left right = true then
    isTrue (eq_of_beq left right equal)
  else
    isFalse fun same => equal (same ▸ beq_self left)

end Value

end Asn1
