import Asn1.Hex
import Asn1.Unicode.Utf8

/-!
# Octets in hexadecimal digits

Digits are decoded exactly if they are pairs of digits, one pair for each octet. The digits that are
written are such pairs.
-/

namespace Asn1.Hex

/-- Two digits for each octet, the high one first. -/
inductive Spells : Octets → Octets → Prop where
  | nil : Spells [] []
  | cons {high low highValue lowValue digits octets} :
      value? high = some highValue → value? low = some lowValue → Spells digits octets →
      Spells (high :: low :: digits) (UInt8.ofNat (highValue * 16 + lowValue) :: octets)

theorem Spells.even {digits octets : Octets} (spells : Spells digits octets) :
    digits.length % 2 = 0 := by
  induction spells with
  | nil => rfl
  | cons _ _ _ inductionHypothesis =>
      simp only [List.length_cons]
      omega

theorem spells_of_pairs {index : Nat} {digits octets : Octets}
    (decoded : pairs index digits = .ok octets) : Spells digits octets := by
  fun_induction pairs index digits generalizing octets with
  | case1 =>
      cases decoded
      exact .nil
  | case2 => cases decoded
  | case3 => cases decoded
  | case4 => cases decoded
  | case5 index high low rest highValue lowValue isLow isHigh inductionHypothesis =>
      cases later : pairs (index + 2) rest with
      | error defect =>
          rw [later] at decoded
          cases decoded
      | ok others =>
          rw [later] at decoded
          cases decoded
          exact .cons isHigh isLow (inductionHypothesis later)

theorem Spells.pairs_eq {digits octets : Octets} (spells : Spells digits octets) (index : Nat) :
    pairs index digits = .ok octets := by
  induction spells generalizing index with
  | nil => rfl
  | cons isHigh isLow _ inductionHypothesis =>
      rw [pairs, isHigh, isLow]
      dsimp only
      rw [inductionHypothesis]
      rfl

/-- Digits are decoded to the octets that they spell. -/
theorem decode_eq_ok_iff {digits octets : Octets} :
    decode digits = .ok octets ↔ Spells digits octets := by
  unfold decode
  constructor
  · intro decoded
    split at decoded
    · cases decoded
    · exact spells_of_pairs decoded
  · intro spells
    have even := spells.even
    rw [if_neg (by omega)]
    exact spells.pairs_eq 0

theorem utf8EncodeChar_digit {value : Nat} (small : value < 16) :
    String.utf8EncodeChar (digit value) = [UInt8.ofNat (digit value).toNat] := by
  have all : ∀ value : Fin 16,
      String.utf8EncodeChar (digit value) = [UInt8.ofNat (digit value).toNat] := by
    decide
  exact all ⟨value, small⟩

theorem spells_encode (octets : Octets) : Spells (Utf8.ofString (encode octets)) octets := by
  rw [Utf8.ofString, encode, String.toList_ofList]
  induction octets with
  | nil => exact .nil
  | cons octet octets inductionHypothesis =>
      have bound := octet.toNat_lt
      have high : octet.toNat / 16 < 16 := by omega
      have low : octet.toNat % 16 < 16 := Nat.mod_lt _ (by decide)
      have spelled := Spells.cons (value?_digit high) (value?_digit low) inductionHypothesis
      rw [Nat.div_add_mod', UInt8.ofNat_toNat] at spelled
      rw [List.flatMap_cons, pair, List.cons_append, List.singleton_append, Utf8.encode_cons,
        Utf8.encode_cons, utf8EncodeChar_digit high, utf8EncodeChar_digit low]
      exact spelled

end Asn1.Hex
