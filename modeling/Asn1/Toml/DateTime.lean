import Asn1.Decimal

/-!
Dates and times of day in TOML. Days are not checked against their month, and hour 24 exists.
-/

namespace Asn1.Toml.DateTime

def two? : List Char → Option (Nat × List Char)
  | tens :: units :: rest => do
      return ((← Decimal.digit? tens) * 10 + (← Decimal.digit? units), rest)
  | _ => none

def behind? (mark : Char) : List Char → Option (List Char)
  | [] => none
  | char :: rest => if char = mark then some rest else none

def date? (chars : List Char) : Option (List Char) := do
  let (_, chars) ← two? chars
  let (_, chars) ← two? chars
  let (month, chars) ← two? (← behind? '-' chars)
  let (day, rest) ← two? (← behind? '-' chars)
  if 1 ≤ month ∧ month ≤ 12 ∧ 1 ≤ day ∧ day ≤ 31 then some rest else none

/-- What follows the fraction of a second. There may be none, but a point needs digits. -/
def fraction? : List Char → Option (List Char)
  | '.' :: rest => if (rest.head?.bind Decimal.digit?).isSome then
      some (rest.dropWhile fun char => (Decimal.digit? char).isSome) else none
  | chars => some chars

def time? (chars : List Char) : Option (List Char) := do
  let (hour, chars) ← two? chars
  let (minute, chars) ← two? (← behind? ':' chars)
  let (second, chars) ← two? (← behind? ':' chars)
  if hour ≤ 24 ∧ minute ≤ 59 ∧ second ≤ 59 then fraction? chars else none

/-- Whether characters write an offset. Both numbers in it may be any. -/
def isOffset : List Char → Bool
  | [] => true
  | [mark] => mark = 'Z' ∨ mark = 'z'
  | mark :: chars =>
      (mark = '+' ∨ mark = '-') ∧ (do
        let (_, chars) ← two? chars
        let (_, rest) ← two? (← behind? ':' chars)
        some rest) = some []

/-- Whether characters write a date, a time of day, or both, then possibly with an offset. -/
def isValid (chars : List Char) : Bool :=
  if chars[2]? = some ':' then
    time? chars = some []
  else
    match date? chars with
    | none => false
    | some [] => true
    | some (mark :: rest) => mark ∈ ['T', 't', ' '] ∧ (time? rest).any isOffset

def hasSignedExponent (chars : List Char) : Bool :=
  (chars.zip chars.tail).any fun (mark, sign) => (mark = 'e' ∨ mark = 'E') ∧ sign = '-'

/-- Whether a date or a time of day begins with a word, by the word and the marks in front of the
words behind it. It begins with a digit or a minus sign. Then there is a `T`, a colon behind the
word, or another minus sign, which must not be that of an exponent. -/
def isBegun (first : List Char) (marks : List Char) : Bool :=
  first.head?.any (fun char => char = '-' ∨ char.isDigit) ∧
    ('T' ∈ first ∨ 't' ∈ first ∨ marks.head? = some ':' ∨
      '-' ∈ first.tail ∧ !hasSignedExponent first)

/-- Whether marks may stand in front of the words of a date or a time of day: possibly a space
before the time of day, which has two colons, then those of a fraction and of an offset. -/
def areMarks (marks : List Char) : Bool :=
  match if marks.head? = some ' ' then marks.tail else marks with
  | [] => true
  | ':' :: ':' :: rest => rest.isSublist ['.', '+', ':']
  | _ => false

end Asn1.Toml.DateTime
