import Asn1.Decimal
import Asn1.Toml.Quotation
import Mathlib.Algebra.Group.Nat.Defs

/-!
# Numbers in digits

What holds of each digit holds of all characters of a number. Hexadecimal digits are read as the
number they write.
-/

namespace Asn1

/-- What is said of the characters in a list is decided for each of them, and no other character. -/
instance (priority := high) decidableForallMemChars {property : Char → Prop}
    [DecidablePred property] (chars : List Char) : Decidable (∀ char ∈ chars, property char) :=
  List.decidableBAll property chars

theorem Decimal.forall_mem_digits {property : Char → Prop}
    (each : ∀ digit : Fin 10, property (Nat.digitChar digit)) (number : Nat) :
    ∀ char ∈ digits number, property char := by
  fun_induction digits number with
  | case1 number small => exact List.forall_mem_singleton.mpr (each ⟨number, small⟩)
  | case2 number large inductionHypothesis =>
      have last := each ⟨number % 10, Nat.mod_lt _ (by decide)⟩
      exact List.forall_mem_append.mpr ⟨inductionHypothesis, List.forall_mem_singleton.mpr last⟩

theorem Decimal.isSome_digit?_of_continue? {number value : Nat} {chars : List Char}
    (read : continue? number chars = some value) : ∀ char ∈ chars, (digit? char).isSome = true := by
  induction chars generalizing number with
  | nil => nofun
  | cons char chars inductionHypothesis =>
      rw [continue?, Option.bind_eq_bind, Option.bind_eq_some_iff] at read
      obtain ⟨digit, isDigit, read⟩ := read
      exact List.forall_mem_cons.mpr ⟨Option.isSome_of_eq_some isDigit, inductionHypothesis read⟩

theorem Decimal.isSome_digit?_of_value? {value : Nat} {chars : List Char}
    (read : value? chars = some value) : ∀ char ∈ chars, (digit? char).isSome = true := by
  cases chars with
  | nil => cases read
  | cons first rest => exact isSome_digit?_of_continue? read

theorem Hex.forall_mem_numeral {property : Char → Prop}
    (each : ∀ digit : Fin 16, property (Hex.digit digit)) (number : Nat) :
    ∀ char ∈ numeral number, property char := by
  fun_induction numeral number with
  | case1 number small => exact List.forall_mem_singleton.mpr (each ⟨number, small⟩)
  | case2 number large inductionHypothesis =>
      have last := each ⟨number % 16, Nat.mod_lt _ (by decide)⟩
      exact List.forall_mem_append.mpr ⟨inductionHypothesis, List.forall_mem_singleton.mpr last⟩

theorem Hex.forall_mem_padded {property : Char → Prop}
    (each : ∀ digit : Fin 16, property (Hex.digit digit)) (width number : Nat) :
    ∀ char ∈ padded width number, property char := by
  refine List.forall_mem_append.mpr ⟨?_, forall_mem_numeral each number⟩
  intro char isZero
  rw [List.eq_of_mem_replicate isZero]
  exact each 0

namespace Toml

theorem hexDigit?_digit {value : Nat} (small : value < 16) :
    hexDigit? (Hex.digit value) = some value := by
  have ascii : ∀ value : Fin 16, (Hex.digit value.val).toNat < 128 := by decide
  rw [hexDigit?, if_pos (ascii ⟨value, small⟩)]
  exact Hex.value?_digit small

theorem hexValue?_append (number : Nat) (front back : List Char) :
    hexValue? number (front ++ back) =
      (hexValue? number front).bind fun read => hexValue? read back := by
  induction front generalizing number with
  | nil => rfl
  | cons char rest inductionHypothesis =>
      simp only [List.cons_append, hexValue?]
      cases hexDigit? char with
      | none => rfl
      | some digit => exact inductionHypothesis _

theorem hexValue?_singleton {number value : Nat} (small : value < 16) :
    hexValue? number [Hex.digit value] = some (number * 16 + value) := by
  rw [hexValue?, hexDigit?_digit small]
  rfl

theorem hexValue?_numeral (number : Nat) : hexValue? 0 (Hex.numeral number) = some number := by
  fun_induction Hex.numeral number with
  | case1 number small =>
      rw [hexValue?_singleton small, Nat.zero_mul, Nat.zero_add]
  | case2 number large inductionHypothesis =>
      rw [hexValue?_append, inductionHypothesis, Option.bind_some,
        hexValue?_singleton (Nat.mod_lt _ (by decide)), Nat.div_add_mod']

theorem hexValue?_replicate_zero (count : Nat) (digits : List Char) :
    hexValue? 0 (List.replicate count '0' ++ digits) = hexValue? 0 digits := by
  induction count with
  | zero => rfl
  | succ count inductionHypothesis =>
      rw [List.replicate_succ, List.cons_append, hexValue?]
      exact inductionHypothesis

theorem hexValue?_padded (width number : Nat) :
    hexValue? 0 (Hex.padded width number) = some number := by
  rw [Hex.padded, hexValue?_replicate_zero, hexValue?_numeral]

end Toml

namespace Hex

theorem length_numeral_le {number width : Nat} (small : number < 16 ^ (width + 1)) :
    (numeral number).length ≤ width + 1 := by
  induction width generalizing number with
  | zero =>
      rw [numeral, if_pos (by simpa using small)]
      exact Nat.le_refl 1
  | succ width inductionHypothesis =>
      rw [numeral]
      split
      · exact Nat.succ_le_succ (Nat.zero_le _)
      · rw [List.length_append]
        apply Nat.succ_le_succ
        apply inductionHypothesis
        rw [Nat.pow_succ] at small
        exact Nat.div_lt_of_lt_mul (by rwa [Nat.mul_comm])

theorem length_padded {number width : Nat} (small : number < 16 ^ (width + 1)) :
    (padded (width + 1) number).length = width + 1 := by
  have short := length_numeral_le small
  rw [padded, List.length_append, List.length_replicate]
  omega

end Hex

end Asn1
