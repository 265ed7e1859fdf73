import Asn1.Proofs.Numeral
import Asn1.Unicode.Visibility

/-!
# Text without control characters
-/

namespace Asn1.Unicode

def NoControl (text : String) : Prop := ∀ char ∈ text.toList, isControl char = false

instance (text : String) : Decidable (NoControl text) :=
  inferInstanceAs (Decidable (∀ char ∈ text.toList, isControl char = false))

theorem noControl_empty : NoControl "" := by
  decide

theorem noControl_ofList {chars : List Char} (each : ∀ char ∈ chars, isControl char = false) :
    NoControl (String.ofList chars) := by
  rw [NoControl, String.toList_ofList]
  exact each

@[simp]
theorem noControl_append_iff {front back : String} :
    NoControl (front ++ back) ↔ NoControl front ∧ NoControl back := by
  rw [NoControl, String.toList_append, List.forall_mem_append]
  rfl

theorem noControl_intercalate {between : String} (noControl : NoControl between)
    {parts : List String} (each : ∀ part ∈ parts, NoControl part) :
    NoControl (between.intercalate parts) := by
  induction parts with
  | nil => exact noControl_empty
  | cons part parts inductionHypothesis =>
      rw [List.forall_mem_cons] at each
      cases parts with
      | nil =>
          rw [String.intercalate_singleton]
          exact each.1
      | cons next parts =>
          rw [String.intercalate_cons_cons, noControl_append_iff, noControl_append_iff]
          exact ⟨⟨each.1, noControl⟩, inductionHypothesis each.2⟩

theorem isControl_of_mem_digits {number : Nat} :
    ∀ char ∈ Decimal.digits number, isControl char = false :=
  Decimal.forall_mem_digits (by decide) number

theorem isControl_of_mem_numeral {number : Nat} :
    ∀ char ∈ Hex.numeral number, isControl char = false :=
  Hex.forall_mem_numeral (by decide) number

@[simp]
theorem noControl_decimal (number : Nat) : NoControl (Decimal.text number) :=
  noControl_ofList isControl_of_mem_digits

@[simp]
theorem noControl_padded (width number : Nat) : NoControl (Decimal.padded width number) := by
  apply noControl_ofList
  rw [List.forall_mem_append]
  constructor
  · intro char membership
    rw [List.eq_of_mem_replicate membership]
    decide
  · exact isControl_of_mem_digits

@[simp]
theorem noControl_hex (octets : Octets) : NoControl (Hex.encode octets) := by
  have digit : ∀ value : Fin 16, isControl (Hex.digit value) = false := by decide
  apply noControl_ofList
  intro char membership
  obtain ⟨octet, -, isDigit⟩ := List.mem_flatMap.mp membership
  have bounded := octet.toNat_lt
  rcases List.mem_cons.mp isDigit with rfl | isLast
  · exact digit ⟨octet.toNat / 16, by omega⟩
  · rw [List.eq_of_mem_singleton isLast]
    exact digit ⟨octet.toNat % 16, by omega⟩

end Asn1.Unicode
