import Asn1.Base64
import Asn1.Proofs.Unicode.Utf8

/-!
# Base 64 is read back

What is written for octets is read as those octets, at any offset and with any of the three ways to
end. It has no symbols but those of the alphabet and the padding.
-/

namespace Asn1.Base64

open Utf8 (ofNat_eq_of_toNat_eq)

/-- A symbol of the alphabet, or what fills up the last group. -/
def IsWritten (octet : UInt8) : Prop := octet = pad ∨ ∃ value < 64, octet = symbol value

theorem symbol_ne_pad {value : Nat} (small : value < 64) : symbol value ≠ pad := by
  intro same
  have read := value?_symbol small
  rw [same] at read
  cases read

theorem isWritten_symbol {value : Nat} (small : value < 64) : IsWritten (symbol value) :=
  .inr ⟨value, small, rfl⟩

theorem isWritten_of_mem_encode (octets : Octets) : ∀ octet ∈ encode octets, IsWritten octet := by
  fun_induction encode octets with
  | case1 => exact List.forall_mem_nil _
  | case2 a =>
      have aBound := a.toNat_lt
      simp only [List.forall_mem_cons]
      exact ⟨isWritten_symbol (by omega), isWritten_symbol (by omega), .inl rfl, .inl rfl,
        List.forall_mem_nil _⟩
  | case3 a b =>
      have aBound := a.toNat_lt
      have bBound := b.toNat_lt
      simp only [List.forall_mem_cons]
      exact ⟨isWritten_symbol (by omega), isWritten_symbol (by omega),
        isWritten_symbol (by omega), .inl rfl, List.forall_mem_nil _⟩
  | case4 a b c rest inductionHypothesis =>
      have aBound := a.toNat_lt
      have bBound := b.toNat_lt
      have cBound := c.toNat_lt
      simp only [List.cons_append, List.nil_append, List.forall_mem_cons]
      exact ⟨isWritten_symbol (by omega), isWritten_symbol (by omega),
        isWritten_symbol (by omega), isWritten_symbol (by omega), inductionHypothesis⟩

/-- What is written is visible ASCII without dashes. -/
theorem IsWritten.visible {octet : UInt8} (isWritten : IsWritten octet) :
    0x20 < octet.toNat ∧ octet.toNat < 0x80 ∧ octet ≠ 0x2d := by
  rcases isWritten with rfl | ⟨value, small, rfl⟩
  · decide
  · have all : ∀ value : Fin 64, 0x20 < (symbol value).toNat ∧ (symbol value).toNat < 0x80 ∧
        symbol value ≠ 0x2d := by
      decide
    exact all ⟨value, small⟩

theorem values_map_symbol {numbers : List Nat} (small : ∀ number ∈ numbers, number < 64)
    (offset : Nat) : values offset (numbers.map symbol) = .ok numbers := by
  induction numbers generalizing offset with
  | nil => rfl
  | cons number numbers inductionHypothesis =>
      rw [List.forall_mem_cons] at small
      rw [List.map_cons, values, value?_symbol small.1, inductionHypothesis small.2]
      rfl

theorem split_padding {numbers : List Nat} (small : ∀ number ∈ numbers, number < 64) (count : Nat) :
    let group := numbers.map symbol ++ List.replicate count pad
    group.takeWhile (· ≠ pad) = numbers.map symbol ∧
      group.dropWhile (· ≠ pad) = List.replicate count pad := by
  have noPadding : ∀ octet ∈ numbers.map symbol, decide (octet ≠ pad) = true := by
    intro octet isMember
    obtain ⟨number, isNumber, rfl⟩ := List.mem_map.mp isMember
    exact decide_eq_true (symbol_ne_pad (small number isNumber))
  dsimp only
  rw [List.takeWhile_append_of_pos noPadding, List.dropWhile_append_of_pos noPadding]
  cases count with
  | zero => exact ⟨List.append_nil _, rfl⟩
  | succ count => exact ⟨List.append_nil _, rfl⟩

/-- A last group with the padding it needs and no bits left over. -/
theorem lastGroup_of_full {numbers : List Nat} (small : ∀ number ∈ numbers, number < 64)
    (several : 2 ≤ numbers.length) {count : Nat} (full : numbers.length + count = 4)
    (used : leftOver numbers = 0) (offset : Nat) :
    lastGroup offset (numbers.map symbol ++ List.replicate count pad) = .ok (octetsOf numbers) := by
  obtain ⟨symbols, padding⟩ := split_padding small count
  have length : (numbers.map symbol ++ List.replicate count pad).length = 4 := by
    rw [List.length_append, List.length_map, List.length_replicate, full]
  have onlyPadding : (List.replicate count pad).any (· ≠ pad) = false := by simp
  rw [lastGroup, symbols, padding, values_map_symbol small, length, List.length_map, onlyPadding]
  have notEmpty : ¬ (List.replicate count pad ≠ [] ∧ (numbers.length < 2 ∨ false = true)) := by
    rintro ⟨-, few | impossible⟩
    · omega
    · cases impossible
  dsimp only [bind, Except.bind]
  rw [if_neg notEmpty, if_neg (by omega), if_neg (by omega), if_neg (by omega)]
  rfl

theorem groups_of_length_le {group : Octets} (short : group.length ≤ 4) (offset : Nat) :
    groups offset group = lastGroup offset group := by
  rw [groups]
  rintro a b c d e rest rfl
  simp only [List.length_cons] at short
  omega

/-- Four symbols are read as a group of their own, whether others follow or not. -/
theorem groups_append {a b c d : Nat} (small : ∀ number ∈ [a, b, c, d], number < 64)
    (rest : Octets) (offset : Nat) :
    groups offset ([a, b, c, d].map symbol ++ rest) =
      (groups (offset + 4) rest).map (octetsOf [a, b, c, d] ++ ·) := by
  cases rest with
  | nil =>
      have read := lastGroup_of_full small (by simp) (Nat.add_zero 4) rfl offset
      rw [List.replicate_zero] at read
      rw [groups_of_length_le (by simp), read]
      rfl
  | cons e rest =>
      have read := values_map_symbol small offset
      simp only [List.map_cons, List.map_nil, List.cons_append, List.nil_append] at read ⊢
      rw [groups, read]
      cases groups (offset + 4) (e :: rest) <;> rfl

/-- Groups are read back, wherever the first one starts. -/
theorem groups_encode (octets : Octets) (offset : Nat) :
    groups offset (encode octets) = .ok octets := by
  fun_induction encode octets generalizing offset with
  | case1 => rfl
  | case2 a =>
      have bound := a.toNat_lt
      have small : ∀ number ∈ [a.toNat / 4, a.toNat % 4 * 16], number < 64 := by
        simp only [List.forall_mem_cons]
        exact ⟨by omega, by omega, List.forall_mem_nil _⟩
      have used : leftOver [a.toNat / 4, a.toNat % 4 * 16] = 0 := by
        rw [leftOver]
        omega
      rw [groups_of_length_le (by simp)]
      refine (lastGroup_of_full small (by simp) (by rfl : _ + 2 = 4) used offset).trans ?_
      rw [octetsOf, ofNat_eq_of_toNat_eq a (by omega)]
  | case3 a b =>
      have aBound := a.toNat_lt
      have bBound := b.toNat_lt
      have small : ∀ number ∈ [a.toNat / 4, a.toNat % 4 * 16 + b.toNat / 16, b.toNat % 16 * 4],
          number < 64 := by
        simp only [List.forall_mem_cons]
        exact ⟨by omega, by omega, by omega, List.forall_mem_nil _⟩
      have used :
          leftOver [a.toNat / 4, a.toNat % 4 * 16 + b.toNat / 16, b.toNat % 16 * 4] = 0 := by
        rw [leftOver]
        omega
      rw [groups_of_length_le (by simp)]
      refine (lastGroup_of_full small (by simp) (by rfl : _ + 1 = 4) used offset).trans ?_
      rw [octetsOf, ofNat_eq_of_toNat_eq a (by omega), ofNat_eq_of_toNat_eq b (by omega)]
  | case4 a b c rest inductionHypothesis =>
      have aBound := a.toNat_lt
      have bBound := b.toNat_lt
      have cBound := c.toNat_lt
      have small : ∀ number ∈ [a.toNat / 4, a.toNat % 4 * 16 + b.toNat / 16,
          b.toNat % 16 * 4 + c.toNat / 64, c.toNat % 64], number < 64 := by
        simp only [List.forall_mem_cons]
        exact ⟨by omega, by omega, by omega, by omega, List.forall_mem_nil _⟩
      refine (groups_append small (encode rest) offset).trans ?_
      rw [inductionHypothesis, octetsOf, ofNat_eq_of_toNat_eq a (by omega),
        ofNat_eq_of_toNat_eq b (by omega), ofNat_eq_of_toNat_eq c (by omega)]
      rfl

/-- Octets are read back from what is written for them. -/
theorem decode_encode (octets : Octets) : decode (encode octets) = .ok octets := by
  have noStray : (encode octets).getLast?.filter
      (fun octet => decide (octet ≠ pad ∧ value? octet = none)) = none := by
    rw [Option.filter_eq_none_iff]
    intro octet isLast
    rw [decide_eq_true_eq]
    rintro ⟨notPad, unread⟩
    obtain isPad | ⟨value, small, rfl⟩ :=
      isWritten_of_mem_encode octets octet (List.mem_of_getLast? isLast)
    · exact notPad isPad
    · rw [value?_symbol small] at unread
      cases unread
  rw [decode, noStray]
  exact groups_encode octets 0

end Asn1.Base64
