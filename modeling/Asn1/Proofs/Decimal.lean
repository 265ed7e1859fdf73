import Asn1.Decimal
import Mathlib.Data.List.Induction

/-!
# Decimal numerals

What is read is a numeral, and its number is the one it writes. `digits` writes a number in as few
digits as there are ways to, and is the only numeral of the number without needless zeros in front.
-/

namespace Asn1.Decimal

def IsNumeral (chars : List Char) (number : Nat) : Prop :=
  chars ≠ [] ∧ (∀ char ∈ chars, char.isDigit = true) ∧ Nat.ofDigitChars 10 chars 0 = number

/-- A numeral of a number than which none is shorter. -/
def IsShortest (chars : List Char) (number : Nat) : Prop :=
  IsNumeral chars number ∧ ∀ other, IsNumeral other number → chars.length ≤ other.length

/-- A zero stands in front that could be left out. -/
def HasLeadingZero (chars : List Char) : Prop := chars.head? = some '0' ∧ 1 < chars.length

theorem exists_digitChar_eq {char : Char} (isDigit : char.isDigit = true) :
    ∃ digit < 10, Nat.digitChar digit = char := by
  rw [Char.isDigit, Bool.and_eq_true, decide_eq_true_iff, decide_eq_true_iff] at isDigit
  have low : 48 ≤ char.toNat := isDigit.1
  have high : char.toNat ≤ 57 := isDigit.2
  refine ⟨char.toNat - 48, by omega, Char.toNat_inj.mp ?_⟩
  rw [Nat.toNat_digitChar_of_lt_ten (by omega)]
  omega

theorem digit?_eq_some_iff {char : Char} {digit : Nat} :
    digit? char = some digit ↔ char.isDigit = true ∧ char.toNat - '0'.toNat = digit := by
  rw [digit?, Option.ite_none_right_eq_some, Option.some_inj, Char.isDigit, Bool.and_eq_true,
    decide_eq_true_iff, decide_eq_true_iff]
  exact Iff.rfl

theorem continue?_eq_some_iff {chars : List Char} {number value : Nat} :
    continue? number chars = some value ↔
      (∀ char ∈ chars, char.isDigit = true) ∧ Nat.ofDigitChars 10 chars number = value := by
  induction chars generalizing number with
  | nil => simp [continue?]
  | cons char chars inductionHypothesis =>
      simp only [continue?, Option.bind_eq_bind, Option.bind_eq_some_iff, digit?_eq_some_iff,
        inductionHypothesis, List.forall_mem_cons, Nat.ofDigitChars_cons]
      constructor
      · rintro ⟨_, ⟨isDigit, rfl⟩, each, written⟩
        exact ⟨⟨isDigit, each⟩, by rwa [Nat.mul_comm 10]⟩
      · rintro ⟨⟨isDigit, each⟩, written⟩
        exact ⟨_, ⟨isDigit, rfl⟩, each, by rwa [Nat.mul_comm number]⟩

theorem value?_eq_some_iff {chars : List Char} {number : Nat} :
    value? chars = some number ↔ IsNumeral chars number := by
  cases chars with
  | nil => simp [value?, IsNumeral]
  | cons first rest =>
      rw [value?, continue?_eq_some_iff, IsNumeral]
      · exact (and_iff_right (List.cons_ne_nil first rest)).symm
      · exact List.cons_ne_nil first rest

theorem isNumeral_digits (number : Nat) : IsNumeral (digits number) number :=
  value?_eq_some_iff.mp (value?_digits number)

theorem digits_of_lt {number : Nat} (small : number < 10) :
    digits number = [Nat.digitChar number] := by
  rw [digits, if_pos small]

theorem digits_concat {number digit : Nat} (positive : 0 < number) (small : digit < 10) :
    digits (10 * number + digit) = digits number ++ [Nat.digitChar digit] := by
  have front : (10 * number + digit) / 10 = number := by omega
  have last : (10 * number + digit) % 10 = digit := by omega
  rw [digits, if_neg (by omega), front, last]

theorem hasLeadingZero_concat_iff {chars : List Char} (nonempty : chars ≠ []) (char : Char) :
    HasLeadingZero (chars ++ [char]) ↔ chars.head? = some '0' := by
  cases chars with
  | nil => exact absurd rfl nonempty
  | cons first rest => simp [HasLeadingZero]

/-- A zero stands in front if it is needless, or if it is the number. -/
theorem head?_eq_zero_iff {chars : List Char} (nonempty : chars ≠ [])
    (same_iff : digits (Nat.ofDigitChars 10 chars 0) = chars ↔ ¬ HasLeadingZero chars) :
    chars.head? = some '0' ↔ HasLeadingZero chars ∨ Nat.ofDigitChars 10 chars 0 = 0 := by
  constructor
  · intro isZero
    obtain ⟨rest, rfl⟩ := List.head?_eq_some_iff.mp isZero
    cases rest with
    | nil => exact .inr rfl
    | cons second rest => exact .inl ⟨rfl, Nat.succ_lt_succ (Nat.succ_pos _)⟩
  · rintro (leading | zero)
    · exact leading.1
    · rw [zero, digits_of_lt (by decide)] at same_iff
      by_cases leading : HasLeadingZero chars
      · exact leading.1
      · rw [← same_iff.mpr leading]
        rfl

/-- Without needless zeros in front a numeral is that of `digits`, and otherwise it is longer. -/
theorem IsNumeral.length_le_and_digits_eq_iff {chars : List Char} {number : Nat}
    (numeral : IsNumeral chars number) :
    (digits number).length ≤ chars.length ∧ (digits number = chars ↔ ¬ HasLeadingZero chars) := by
  -- `digits` adds the last digit to those of the front, so the induction is on the last digit. It
  -- needs both parts: a front that is zero without being needless is the single digit `0`.
  induction chars using List.reverseRecOn generalizing number with
  | nil => exact absurd rfl numeral.1
  | append_singleton chars char inductionHypothesis =>
      obtain ⟨-, each, rfl⟩ := numeral
      rw [List.forall_mem_append, List.forall_mem_singleton] at each
      obtain ⟨each, isDigit⟩ := each
      obtain ⟨digit, small, rfl⟩ := exists_digitChar_eq isDigit
      rw [Nat.ofDigitChars_append, Nat.ofDigitChars_cons_digitChar_of_lt_ten small,
        Nat.ofDigitChars_nil, List.length_append, List.length_singleton]
      by_cases nonempty : chars = []
      · rw [nonempty, Nat.ofDigitChars_nil, Nat.mul_zero, Nat.zero_add, digits_of_lt small]
        simp [HasLeadingZero]
      · obtain ⟨shorter, same_iff⟩ := inductionHypothesis ⟨nonempty, each, rfl⟩
        rw [hasLeadingZero_concat_iff nonempty, head?_eq_zero_iff nonempty same_iff]
        rcases Nat.eq_zero_or_pos (Nat.ofDigitChars 10 chars 0) with zero | positive
        · rw [zero, Nat.mul_zero, Nat.zero_add, digits_of_lt small]
          simp [nonempty]
        · rw [digits_concat positive small, List.append_left_inj, same_iff,
            or_iff_left (Nat.ne_of_gt positive), List.length_append, List.length_singleton]
          exact ⟨Nat.succ_le_succ shorter, Iff.rfl⟩

/-- A needless zero in front can be left out. -/
theorem IsNumeral.exists_shorter {chars : List Char} {number : Nat}
    (numeral : IsNumeral chars number) (leading : HasLeadingZero chars) :
    ∃ other, IsNumeral other number ∧ other.length < chars.length := by
  obtain ⟨isZero, further⟩ := leading
  obtain ⟨rest, rfl⟩ := List.head?_eq_some_iff.mp isZero
  obtain ⟨-, each, written⟩ := numeral
  refine ⟨rest, ⟨?_, (List.forall_mem_cons.mp each).2, written⟩, Nat.lt_succ_self _⟩
  rintro rfl
  exact absurd further (Nat.lt_irrefl 1)

/-- The shortest numeral of a number is that of `digits`. -/
theorem isShortest_iff {chars : List Char} {number : Nat} :
    IsShortest chars number ↔ chars = digits number := by
  constructor
  · rintro ⟨numeral, shortest⟩
    by_contra different
    have leading : HasLeadingZero chars := by
      by_contra noZero
      exact different (numeral.length_le_and_digits_eq_iff.2.mpr noZero).symm
    obtain ⟨other, isOther, shorter⟩ := numeral.exists_shorter leading
    exact absurd (shortest other isOther) (Nat.not_le.mpr shorter)
  · rintro rfl
    exact ⟨isNumeral_digits number, fun other numeral => numeral.length_le_and_digits_eq_iff.1⟩

end Asn1.Decimal
