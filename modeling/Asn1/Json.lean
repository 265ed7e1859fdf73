import Asn1.Hex
import Asn1.Unicode.Visibility

/-!
JSON documents, laid out one entry a line and indented by three spaces a level.
-/

namespace Asn1.Json

/-- Writes a character of a string. All control characters are escaped. -/
def escapeChar (char : Char) : List Char :=
  if char = '"' then ['\\', '"']
  else if char = '\\' then ['\\', '\\']
  else if char = '\n' then ['\\', 'n']
  else if char = '\r' then ['\\', 'r']
  else if char = '\t' then ['\\', 't']
  else if Unicode.isControl char then ['\\', 'u'] ++ Hex.padded 4 char.toNat
  else [char]

/-- Text as it is written between the quotation marks of a string. -/
def escape (text : String) : String := String.ofList (text.toList.flatMap escapeChar)

def quote (text : String) : String := "\"" ++ escape text ++ "\""

/-- What an object or an array is made up of. -/
inductive Entry where
  /-- A member whose value is a string. -/
  | string (key value : String)
  /-- A member whose value stands without quotation marks: a number, a truth value or null. -/
  | bare (key value : String)
  /-- A member whose value is an array of the items. -/
  | array (key : String) (items : List Entry)
  /-- An item of an array that is an object with the members. -/
  | object (members : List Entry)
  deriving Inhabited

def indentation (level : Nat) : String := String.join (List.replicate level "   ")

def label (level : Nat) (key : String) : String := indentation level ++ quote key ++ ": "

mutual

def Entry.render (level : Nat) : Entry → String
  | .string key value => label level key ++ quote value
  | .bare key value => label level key ++ escape value
  | .array key items => label level key ++ "[\n" ++ renderAll (level + 1) items
      ++ indentation level ++ "]"
  | .object members => indentation level ++ "\x7b\n" ++ renderAll (level + 1) members
      ++ indentation level ++ "\x7d"

/-- Writes entries on a level, each but the last followed by a comma, all on lines of their own. -/
def renderAll (level : Nat) : List Entry → String
  | [] => ""
  | [entry] => entry.render level ++ "\n"
  | entry :: rest => entry.render level ++ ",\n" ++ renderAll level rest

end

def document (members : List Entry) : String := (Entry.object members).render 0

end Asn1.Json
