import Asn1.Toml.Quotation

/-!
# The grammar of JSON

What the texts are that RFC 8259 allows for each value. The grammar does not look at a document from
the front but says, rule by rule, how its parts are put together.
-/

namespace Asn1.Json

/-- The values of JSON. Members keep their order, and numbers are what is written. -/
inductive Data where
  | null
  | boolean (flag : Bool)
  | number (literal : String)
  | string (text : String)
  | array (items : List Data)
  | object (members : List (String × Data))

def spaces : List Char := [' ', '\t', '\n', '\r']

def Space (text : List Char) : Prop := ∀ char ∈ text, char ∈ spaces

/-- The letters that stand behind a backslash, with what they stand for. -/
def shortEscapes : List (Char × Char) :=
  [('"', '"'), ('\\', '\\'), ('/', '/'), ('b', '\x08'), ('f', '\x0c'), ('n', '\n'), ('r', '\r'),
    ('t', '\t')]

/-- Four hexadecimal digits that are the value of a UTF-16 code unit. -/
def UnitSpelling (codeUnit : Nat) (digits : List Char) : Prop :=
  digits.length = 4 ∧ Toml.hexValue? 0 digits = some codeUnit

/-- The ways to write a character in a string. What is beyond the Basic Multilingual Plane is
escaped as a surrogate pair. -/
inductive CharSpelling (char : Char) : List Char → Prop where
  | plain : 0x20 ≤ char.toNat → char ≠ '"' → char ≠ '\\' → CharSpelling char [char]
  | short {letter} : (letter, char) ∈ shortEscapes → CharSpelling char ['\\', letter]
  | codeUnit {digits} : UnitSpelling char.toNat digits → CharSpelling char ('\\' :: 'u' :: digits)
  | pair {high low digits others} :
      0xd800 ≤ high → high < 0xdc00 → 0xdc00 ≤ low → low < 0xe000 →
      UnitSpelling high digits → UnitSpelling low others →
      char.toNat = 0x10000 + (high - 0xd800) * 0x400 + (low - 0xdc00) →
      CharSpelling char ('\\' :: 'u' :: digits ++ '\\' :: 'u' :: others)

/-- Characters one after another up to the closing quotation mark. -/
inductive CharsSpelling : List Char → List Char → Prop where
  | close : CharsSpelling [] ['"']
  | char {char chars first rest} : CharSpelling char first → CharsSpelling chars rest →
      CharsSpelling (char :: chars) (first ++ rest)

def StringSpelling (string : String) (text : List Char) : Prop :=
  ∃ inner, text = '"' :: inner ∧ CharsSpelling string.toList inner

def digits : List Char := ['0', '1', '2', '3', '4', '5', '6', '7', '8', '9']

def Digits (text : List Char) : Prop := text ≠ [] ∧ ∀ char ∈ text, char ∈ digits

def WholeNumber (text : List Char) : Prop :=
  Digits text ∧ (text.head? = some '0' → text = ['0'])

/-- A number: its sign, whole part, fraction and exponent, most of which may be left out. -/
def IsNumber (text : List Char) : Prop :=
  ∃ sign whole fraction exponent, text = sign ++ whole ++ fraction ++ exponent ∧
    (sign = [] ∨ sign = ['-']) ∧ WholeNumber whole ∧
    (fraction = [] ∨ ∃ digits, fraction = '.' :: digits ∧ Digits digits) ∧
    (exponent = [] ∨ ∃ mark sign digits, exponent = mark :: sign ++ digits ∧ mark ∈ ['e', 'E'] ∧
      sign ∈ [[], ['+'], ['-']] ∧ Digits digits)

/-- A part of a series with white space around it. -/
def Padded (part : List Char → Prop) (text : List Char) : Prop :=
  ∃ before inner after, text = before ++ inner ++ after ∧ Space before ∧ part inner ∧ Space after

def Further : List (List Char → Prop) → List Char → Prop
  | [], text => text = []
  | part :: parts, text =>
      ∃ first rest, text = ',' :: first ++ rest ∧ Padded part first ∧ Further parts rest

def Series : List (List Char → Prop) → List Char → Prop
  | [], text => Space text
  | part :: parts, text =>
      ∃ first rest, text = first ++ rest ∧ Padded part first ∧ Further parts rest

def MemberSpelling (name : String) (value : List Char → Prop) (text : List Char) : Prop :=
  ∃ nameText before after valueText, text = nameText ++ before ++ ':' :: after ++ valueText ∧
    StringSpelling name nameText ∧ Space before ∧ Space after ∧ value valueText

namespace Data

/-- The ways to write a value. -/
def Spelling : Data → List Char → Prop
  | null, text => text = ['n', 'u', 'l', 'l']
  | boolean flag, text =>
      text = if flag then ['t', 'r', 'u', 'e'] else ['f', 'a', 'l', 's', 'e']
  | number literal, text => text = literal.toList ∧ IsNumber text
  | string value, text => StringSpelling value text
  | array items, text =>
      ∃ inner, text = '[' :: inner ++ [']'] ∧ Series (items.map Spelling) inner
  | object members, text =>
      ∃ inner, text = '\x7b' :: inner ++ ['\x7d'] ∧
        Series (members.map fun member => MemberSpelling member.1 member.2.Spelling) inner
termination_by data => data
decreasing_by
  · have smaller := List.sizeOf_lt_of_mem ‹_ ∈ items›
    simp only [array.sizeOf_spec]
    omega
  · have smaller := List.sizeOf_lt_of_mem ‹_ ∈ members›
    rcases ‹String × Data› with ⟨name, value⟩
    rw [Prod.mk.sizeOf_spec] at smaller
    simp only [object.sizeOf_spec]
    omega

end Data

/-- A text is a document that means the value. -/
def Denotes (text : String) (data : Data) : Prop := Padded data.Spelling text.toList

namespace Data

/-- A property of all values follows from that of their parts. -/
@[elab_as_elim]
theorem induction {motive : Data → Prop} (null : motive .null)
    (boolean : ∀ flag, motive (.boolean flag)) (number : ∀ literal, motive (.number literal))
    (string : ∀ text, motive (.string text))
    (array : ∀ items, (∀ item ∈ items, motive item) → motive (.array items))
    (object : ∀ members, (∀ member ∈ members, motive member.2) → motive (.object members))
    (data : Data) : motive data := by
  refine @Data.rec motive (fun items => ∀ item ∈ items, motive item)
    (fun members => ∀ member ∈ members, motive member.2) (fun member => motive member.2)
    null boolean number string array object ?_ ?_ ?_ ?_ ?_ data
  · intro item membership
    cases membership
  · intro head tail ofHead ofTail item membership
    rcases List.mem_cons.mp membership with rfl | membership
    · exact ofHead
    · exact ofTail item membership
  · intro member membership
    cases membership
  · intro head tail ofHead ofTail member membership
    rcases List.mem_cons.mp membership with rfl | membership
    · exact ofHead
    · exact ofTail member membership
  · intro name value ofValue
    exact ofValue

end Data

end Asn1.Json
