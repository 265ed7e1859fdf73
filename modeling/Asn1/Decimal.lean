/-!
Decimal numbers in ASCII digits. Reading takes any number of leading zeros; writing gives none.
-/

namespace Asn1.Decimal

def digit? (char : Char) : Option Nat :=
  if '0' ≤ char ∧ char ≤ '9' then some (char.toNat - '0'.toNat) else none

/-- Reads digits behind a number that is written already. -/
def continue? (number : Nat) : List Char → Option Nat
  | [] => some number
  | char :: rest => do continue? (number * 10 + (← digit? char)) rest

def value? : List Char → Option Nat
  | [] => none
  | chars => continue? 0 chars

def digits (number : Nat) : List Char :=
  if number < 10 then [Nat.digitChar number]
  else digits (number / 10) ++ [Nat.digitChar (number % 10)]

def text (number : Nat) : String := String.ofList (digits number)

def padded (width number : Nat) : String :=
  String.ofList (List.replicate (width - (digits number).length) '0' ++ digits number)

theorem continue?_append (number : Nat) (front back : List Char) :
    continue? number (front ++ back) =
      (continue? number front).bind fun read => continue? read back := by
  induction front generalizing number with
  | nil => rfl
  | cons char rest inductionHypothesis =>
      simp only [List.cons_append, continue?]
      cases digit? char with
      | none => rfl
      | some digit => exact inductionHypothesis _

theorem digit?_digitChar {digit : Nat} (small : digit < 10) :
    digit? (Nat.digitChar digit) = some digit := by
  have all : ∀ digit : Fin 10, digit? (Nat.digitChar digit) = some digit.val := by decide
  exact all ⟨digit, small⟩

theorem continue?_digits (number : Nat) : continue? 0 (digits number) = some number := by
  fun_induction digits number with
  | case1 number small => simp [continue?, digit?_digitChar small]
  | case2 number large inductionHypothesis =>
      rw [continue?_append, inductionHypothesis]
      simp only [Option.bind_some, continue?, digit?_digitChar (Nat.mod_lt _ (by decide : 0 < 10))]
      simp
      omega

theorem digits_ne_nil (number : Nat) : digits number ≠ [] := by
  rw [digits]
  split <;> simp

theorem value?_digits (number : Nat) : value? (digits number) = some number := by
  have nonempty := digits_ne_nil number
  rw [← continue?_digits number]
  cases found : digits number with
  | nil => exact absurd found nonempty
  | cons first rest => rfl

end Asn1.Decimal
