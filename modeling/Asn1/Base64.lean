import Asn1.Decimal
import Asn1.Octets

/-!
Base 64: three octets in four symbols, the last group padded. Reading demands the padding and that
the bits that are left over are zero.
-/

namespace Asn1.Base64

/-- Fills up the last group. -/
def pad : UInt8 := 61

def value? (symbol : UInt8) : Option Nat :=
  let code := symbol.toNat
  if 65 ≤ code ∧ code ≤ 90 then some (code - 65)
  else if 97 ≤ code ∧ code ≤ 122 then some (code - 71)
  else if 48 ≤ code ∧ code ≤ 57 then some (code + 4)
  else if code = 43 then some 62
  else if code = 47 then some 63
  else none

def symbol (value : Nat) : UInt8 :=
  if value < 26 then UInt8.ofNat (value + 65)
  else if value < 52 then UInt8.ofNat (value + 71)
  else if value < 62 then UInt8.ofNat (value - 4)
  else if value = 62 then 43
  else 47

inductive Defect where
  /-- What is at an offset does not belong there. -/
  | invalidSymbol (octet : UInt8) (offset : Nat)
  /-- The last group has too few symbols; so many there are in all. -/
  | invalidLength (length : Nat)
  /-- The last group is not filled up. -/
  | invalidPadding
  /-- Bits of the last symbol that write nothing are not zero. -/
  | invalidLastSymbol (octet : UInt8) (offset : Nat)
  deriving DecidableEq, Repr

def Defect.message : Defect → String
  | invalidSymbol octet offset =>
      "Invalid symbol " ++ Decimal.text octet.toNat ++ ", offset " ++ Decimal.text offset ++ "."
  | invalidLength length => "Invalid input length: " ++ Decimal.text length
  | invalidPadding => "Invalid padding"
  | invalidLastSymbol octet offset =>
      "Invalid last symbol " ++ Decimal.text octet.toNat ++ ", offset " ++ Decimal.text offset
        ++ "."

/-- The values of symbols, the first of which is at an offset. -/
def values (offset : Nat) : Octets → Except Defect (List Nat)
  | [] => .ok []
  | octet :: rest =>
      match value? octet with
      | none => .error (.invalidSymbol octet offset)
      | some value => (values (offset + 1) rest).map (value :: ·)

/-- The octets written by the values of two to four symbols. -/
def octetsOf : List Nat → Octets
  | [a, b] => [UInt8.ofNat (a * 4 + b / 16)]
  | [a, b, c] => [UInt8.ofNat (a * 4 + b / 16), UInt8.ofNat (b % 16 * 16 + c / 4)]
  | [a, b, c, d] =>
      [UInt8.ofNat (a * 4 + b / 16), UInt8.ofNat (b % 16 * 16 + c / 4),
        UInt8.ofNat (c % 4 * 64 + d)]
  | _ => []

/-- The part of the last value that writes nothing. -/
def leftOver : List Nat → Nat
  | [_, b] => b % 16
  | [_, _, c] => c % 4
  | _ => 0

def lastGroup (offset : Nat) (group : Octets) : Except Defect Octets := do
  let symbols := group.takeWhile (· ≠ pad)
  let padding := group.dropWhile (· ≠ pad)
  let read ← values offset symbols
  if padding ≠ [] ∧ (symbols.length < 2 ∨ padding.any (· ≠ pad)) then
    throw (.invalidSymbol pad (offset + symbols.length))
  else if group ≠ [] ∧ symbols.length < 2 then
    throw (.invalidLength (offset + symbols.length))
  else if group ≠ [] ∧ group.length ≠ 4 then
    throw .invalidPadding
  else if leftOver read ≠ 0 then
    throw (.invalidLastSymbol (symbols.getLastD pad) (offset + symbols.length - 1))
  else
    return octetsOf read

/-- Reads groups of four symbols, the first of which starts at an offset. -/
def groups (offset : Nat) : Octets → Except Defect Octets
  | a :: b :: c :: d :: e :: rest => do
      let read ← values offset [a, b, c, d]
      return octetsOf read ++ (← groups (offset + 4) (e :: rest))
  | group => lastGroup offset group

/-- Reads the octets that symbols write. A symbol too many at the end is looked at first. -/
def decode (symbols : Octets) : Except Defect Octets :=
  let stray := symbols.getLast?.filter fun octet => octet ≠ pad ∧ value? octet = none
  match stray with
  | some octet =>
      if symbols.length % 4 = 1 then .error (.invalidSymbol octet (symbols.length - 1))
      else groups 0 symbols
  | none => groups 0 symbols

def encode : Octets → Octets
  | [] => []
  | [a] => [symbol (a.toNat / 4), symbol (a.toNat % 4 * 16), pad, pad]
  | [a, b] =>
      [symbol (a.toNat / 4), symbol (a.toNat % 4 * 16 + b.toNat / 16),
        symbol (b.toNat % 16 * 4), pad]
  | a :: b :: c :: rest =>
      [symbol (a.toNat / 4), symbol (a.toNat % 4 * 16 + b.toNat / 16),
        symbol (b.toNat % 16 * 4 + c.toNat / 64), symbol (c.toNat % 64)] ++ encode rest

theorem value?_symbol {value : Nat} (small : value < 64) :
    value? (symbol value) = some value := by
  have all : ∀ value : Fin 64, value? (symbol value) = some value.val := by decide
  exact all ⟨value, small⟩

end Asn1.Base64
