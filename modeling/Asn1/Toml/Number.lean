import Asn1.Decimal

/-!
Numbers in TOML. Digits may be set apart by single underscores. Integers fit 64 bits with a sign,
and a floating-point number is not so large that it would be rounded to infinity.
-/

namespace Asn1.Toml

inductive Number where
  | integer (number : Int)
  /-- The number `coefficient * 10 ^ exponent`, or its negative, with a point or an exponent. -/
  | floating (negative : Bool) (coefficient : Nat) (exponent : Int)
  | infinite (negative : Bool)
  | undefined
  deriving DecidableEq, Repr

namespace Number

def digit? (radix : Nat) (char : Char) : Option Nat :=
  let value := if char.isDigit then char.toNat - '0'.toNat
    else if char.isAlpha then char.toLower.toNat - 'a'.toNat + 10
    else radix
  if value < radix then some value else none

def ofDigits (radix : Nat) (digits : List Nat) : Nat :=
  digits.foldl (fun number digit => number * radix + digit) 0

def isRun (radix : Nat) (char : Char) : Bool := char = '_' ∨ (digit? radix char).isSome

/-- Whether underscores stand between digits only, one at a place. -/
def isSpaced : List Char → Bool
  | [] => false
  | [last] => last ≠ '_'
  | first :: second :: rest =>
      first ≠ '_' ∧ if second = '_' then isSpaced rest else isSpaced (second :: rest)

def digits? (radix : Nat) (chars : List Char) : Option (List Nat × List Char) :=
  let run := chars.takeWhile (isRun radix)
  if isSpaced run then some (run.filterMap (digit? radix), chars.dropWhile (isRun radix))
  else none

def minus : List Char → Bool × List Char
  | '-' :: rest => (true, rest)
  | chars => (false, chars)

def dropPlus : List Char → List Char
  | '+' :: rest => rest
  | chars => chars

/-- The least number that does not fit 64 bits with a sign, unless it is negative. -/
def integerLimit : Nat := 0x8000000000000000

/-- The integer that is a number or its negative, if it fits 64 bits. -/
def integer? (negative : Bool) (number : Nat) : Option Int :=
  if negative then
    if number ≤ integerLimit then some (-number) else none
  else
    if number < integerLimit then some number else none

/-- Reads an integer in a radix that is written without a sign. -/
def unsigned? (radix : Nat) (chars : List Char) : Option Number :=
  match digits? radix chars with
  | some (digits, []) => (integer? false (ofDigits radix digits)).map integer
  | _ => none

/-- The least number that is rounded to infinity by 53 bits and exponents below 1024. -/
def overflow : Nat := Nat.pow 2 1024 - Nat.pow 2 970

/-- Whether a number is not rounded to infinity. Only numbers with 309 digits before the point are
close enough to the bound to be compared with it. -/
def fits (coefficient : Nat) (exponent : Int) : Bool :=
  let size := (Decimal.digits coefficient).length + exponent
  if coefficient = 0 ∨ size ≤ 308 then true
  else if 310 ≤ size then false
  else coefficient * Nat.pow 10 exponent.toNat < overflow * Nat.pow 10 (-exponent).toNat

def fraction? : List Char → Option (List Nat × List Char)
  | '.' :: rest => digits? 10 rest
  | chars => some ([], chars)

/-- Reads what is left of a number as an exponent, 0 if nothing is left. -/
def exponent? : List Char → Option Int
  | [] => some 0
  | mark :: rest =>
      if mark = 'e' ∨ mark = 'E' then
        let (negative, unsigned) := minus rest
        match digits? 10 (if negative then unsigned else dropPlus unsigned) with
        | some (digits, []) =>
            let value : Int := ofDigits 10 digits
            some (if negative then -value else value)
        | _ => none
      else
        none

/-- Reads a decimal number, which has no zero in front of other digits before the point. -/
def decimal? (chars : List Char) : Option Number := do
  let (negative, unsigned) := minus chars
  let (digits, rest) ← digits? 10 unsigned
  if digits.head? = some 0 ∧ digits ≠ [0] then
    none
  else if rest = [] then
    (integer? negative (ofDigits 10 digits)).map integer
  else
    let (fraction, rest) ← fraction? rest
    let coefficient := ofDigits 10 (digits ++ fraction)
    let exponent := (← exponent? rest) - fraction.length
    if fits coefficient exponent then some (floating negative coefficient exponent) else none

/-- Reads a number. A plus sign may stand in front of any other number. -/
def read? (chars : List Char) : Option Number :=
  match dropPlus chars with
  | '0' :: 'x' :: digits => unsigned? 16 digits
  | '0' :: 'o' :: digits => unsigned? 8 digits
  | '0' :: 'b' :: digits => unsigned? 2 digits
  | chars =>
      match minus chars with
      | (negative, ['i', 'n', 'f']) => some (infinite negative)
      | (_, ['n', 'a', 'n']) => some undefined
      | _ => decimal? chars

end Number

end Asn1.Toml
