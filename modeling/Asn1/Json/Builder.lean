import Asn1.Json

/-!
Building a document call by call. The text grows at its end only, so what separates two entries is
written when the second of them comes.
-/

namespace Asn1.Json

def isPlain (char : Char) : Bool :=
  decide (char ≠ '"') && decide (char ≠ '\\') && !Unicode.isControl char

/-- Writes the characters up to the first that is not plain, that one, and goes on behind it. -/
def escapeRuns (chars : List Char) : List Char :=
  chars.takeWhile isPlain ++
    match _found : chars.dropWhile isPlain with
    | [] => []
    | special :: rest => escapeChar special ++ escapeRuns rest
termination_by chars.length
decreasing_by
  have shorter := (List.dropWhile_suffix isPlain (l := chars)).length_le
  rw [_found, List.length_cons] at shorter
  omega

/-- A part of the text between the quotation marks of a string, as it is written. -/
def escapePart (part : String) : String := String.ofList (escapeRuns part.toList)

/-- The text so far, and where on a level the next entry stands. -/
structure Builder where
  target : String := ""
  level : Nat := 0
  /-- Whether there is no entry on this level so far. -/
  isEmpty : Bool := true
  deriving DecidableEq, Repr

namespace Builder

def push (builder : Builder) (text : String) : Builder :=
  { builder with target := builder.target ++ text }

/-- Separates the next entry from the one before, if there is one. -/
def separate (builder : Builder) : Builder :=
  if builder.isEmpty then { builder with isEmpty := false } else builder.push ",\n"

def indent (builder : Builder) : Builder := builder.push (indentation builder.level)

def pushQuoted (builder : Builder) (text : String) : Builder :=
  ((builder.push "\"").push (escapePart text)).push "\""

def pushKey (builder : Builder) (key : String) : Builder :=
  (builder.separate.indent.pushQuoted key).push ": "

/-- Adds entries a level deeper, and ends the line of the last of them. -/
def nested (builder : Builder) (add : Builder → Builder) : Builder :=
  let inner := add { target := builder.target, level := builder.level + 1 }
  { builder with target := if inner.isEmpty then inner.target else inner.target ++ "\n" }

mutual

def add (builder : Builder) : Entry → Builder
  | .string key value => (builder.pushKey key).pushQuoted value
  | .bare key value => (builder.pushKey key).push (escapePart value)
  | .array key items =>
      (((builder.pushKey key).push "[\n").nested fun inner => inner.addAll items).indent.push "]"
  | .object members =>
      ((builder.separate.indent.push "\x7b\n").nested
        fun inner => inner.addAll members).indent.push "\x7d"

def addAll (builder : Builder) : List Entry → Builder
  | [] => builder
  | entry :: rest => (builder.add entry).addAll rest

end

def build (members : List Entry) : String :=
  (({} : Builder).add (.object members)).target

end Builder

end Asn1.Json
