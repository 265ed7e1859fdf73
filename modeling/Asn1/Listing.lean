import Asn1.Json
import Asn1.Quoted
import Asn1.Value

/-!
Showing decoded values, as an indented tree or in JSON.
-/

namespace Asn1

inductive OutputFormat where
  /-- One line for each value, indented by its depth. -/
  | text
  | json
  deriving DecidableEq, Repr

namespace OutputFormat

def name : OutputFormat → String
  | text => "text"
  | json => "json"

def ofName? : String → Option OutputFormat
  | "text" => some text
  | "json" => some json
  | _ => none

def invalidMessage (name : String) : String := "invalid output format '" ++ name ++ "'"

end OutputFormat

namespace Value

/-- How many octets are shown of content that is not interpreted. -/
def previewSize : Nat := 16

/-- Shows the content of a primitive value: naturally if it is interpreted, otherwise as the digits
of its first octets. -/
def rendered : Value → String
  | constructed _ _ _ => ""
  | boolean octet => if octet = 0 then "FALSE" else "TRUE"
  | objectId id => id.dotted
  | text string =>
      match string.decode with
      | .ok shown => shown
      | .error _ => "[invalid text]"
  | utcTime _ time => time.text
  | generic _ body =>
      Hex.encode (body.take previewSize) ++ if previewSize < body.length then "..." else ""

/-- What stands behind the type and length of a value on its line. Text is quoted. -/
def remark : Value → String
  | constructed _ _ _ => ""
  | text string => ": " ++ Quoted.string (text string).rendered
  | value => if value.rendered = "" then "" else ": " ++ value.rendered

def line (depth : Nat) (value : Value) : String :=
  String.ofList (List.replicate (depth * 2) ' ') ++ value.description ++ " ["
    ++ Decimal.text value.body.length ++ "]" ++ value.remark ++ "\n"

mutual

/-- The lines of a value at a depth and of everything nested in it. -/
def lines (depth : Nat) : Value → List String
  | constructed tag body elements =>
      line depth (constructed tag body elements) :: linesAll (depth + 1) elements
  | value => [line depth value]

def linesAll (depth : Nat) : List Value → List String
  | [] => []
  | value :: rest => lines depth value ++ linesAll depth rest

end

def jsonBool (flag : Bool) : String := if flag then "true" else "false"

def commonMembers (value : Value) : List Json.Entry :=
  [.string "type" value.description,
    .string "class" value.tag.tagClass.name,
    .bare "tag" (Decimal.text value.tag.number.val),
    .bare "constructed" (jsonBool value.isConstructed),
    .bare "length" (Decimal.text value.body.length)]

/-- The member for the content of a primitive value. Text has it even if it is empty. -/
def contentMember (value : Value) : List Json.Entry :=
  if value.rendered ≠ "" ∨ value.isText then [.string "value" value.rendered] else []

mutual

def members : Value → List Json.Entry
  | constructed tag body elements =>
      commonMembers (constructed tag body elements) ++ [.array "elements" (objects elements)]
  | value => commonMembers value ++ contentMember value

def objects : List Value → List Json.Entry
  | [] => []
  | value :: rest => .object (members value) :: objects rest

end

/-- The pieces of text that show a value, in the order in which they are written. -/
def pieces (format : OutputFormat) (value : Value) : List String :=
  match format with
  | .text => value.lines 0
  | .json => [Json.document value.members, "\n"]

end Value

end Asn1
