import Asn1.Octets
import Mathlib.Algebra.Group.Nat.Defs
import Mathlib.Data.List.Induction

/-!
# Numbers in base 256

`ofNat` writes a number with as few octets as there are ways to write it, and it is the only way to
write the number with that few.
-/

namespace Asn1.Octets

theorem toNat_lt (octets : Octets) : toNat octets < 256 ^ octets.length := by
  induction octets using List.reverseRecOn with
  | nil => simp
  | append_singleton octets octet inductionHypothesis =>
      have octetBound := octet.toNat_lt
      rw [toNat_concat, List.length_append, List.length_singleton, Nat.pow_succ]
      omega

theorem ofNat_concat (octets : Octets) (octet : UInt8)
    (nonzero : toNat octets * 256 + octet.toNat ≠ 0) :
    ofNat (toNat octets * 256 + octet.toNat) = ofNat (toNat octets) ++ [octet] := by
  have octetBound := octet.toNat_lt
  have quotient : (toNat octets * 256 + octet.toNat) / 256 = toNat octets := by omega
  have lowOctet : UInt8.ofNat (toNat octets * 256 + octet.toNat) = octet := by
    apply UInt8.toNat_inj.mp
    rw [UInt8.toNat_ofNat']
    omega
  rw [ofNat, if_neg nonzero, quotient, lowOctet]

/-- No octets that write a number are fewer than those of `ofNat`. -/
theorem length_ofNat_toNat_le (octets : Octets) :
    (ofNat (toNat octets)).length ≤ octets.length := by
  induction octets using List.reverseRecOn with
  | nil => simp [ofNat]
  | append_singleton octets octet inductionHypothesis =>
      rw [toNat_concat]
      by_cases nonzero : toNat octets * 256 + octet.toNat = 0
      · simp [nonzero, ofNat]
      · rw [ofNat_concat octets octet nonzero]
        simpa using inductionHypothesis

/-- Octets that write a number and are as few as those of `ofNat` are those of `ofNat`. -/
theorem ofNat_toNat_of_length_eq (octets : Octets)
    (sameLength : (ofNat (toNat octets)).length = octets.length) :
    ofNat (toNat octets) = octets := by
  induction octets using List.reverseRecOn with
  | nil => simp [ofNat]
  | append_singleton octets octet inductionHypothesis =>
      rw [toNat_concat] at sameLength ⊢
      by_cases nonzero : toNat octets * 256 + octet.toNat = 0
      · simp [nonzero, ofNat] at sameLength
      · rw [ofNat_concat octets octet nonzero] at sameLength ⊢
        rw [inductionHypothesis (by simpa using sameLength)]

theorem length_ofNat_le_of_lt_pow {number width : Nat} (bound : number < 256 ^ width) :
    (ofNat number).length ≤ width := by
  induction width generalizing number with
  | zero =>
      have zero : number = 0 := by simpa using bound
      simp [zero, ofNat]
  | succ width inductionHypothesis =>
      rw [ofNat]
      split
      · simp
      · have quotientBound : number / 256 < 256 ^ width := by
          rw [Nat.pow_succ] at bound
          omega
        simpa using inductionHypothesis quotientBound

end Asn1.Octets
