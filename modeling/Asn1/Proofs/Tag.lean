import Asn1.Tag
import Asn1.Proofs.Scan

/-!
# Identifier octets

Each identifier is written by one octet, and read from no other.
-/

namespace Asn1

theorem TagClass.bits_ofBits (number : Nat) (bound : number < 4) :
    (ofBits number).bits = number := by
  match number, bound with
  | 0, _ | 1, _ | 2, _ | 3, _ => rfl

namespace Identifier

theorem eq_octet_of_ofOctet? {octet : UInt8} {identifier : Identifier}
    (found : ofOctet? octet = some identifier) : octet = identifier.octet := by
  simp only [ofOctet?, Tag.ofNumber?, Option.map_eq_some_iff, Option.dite_none_right_eq_some,
    Option.some.injEq] at found
  obtain ⟨tag, ⟨fits, rfl⟩, rfl⟩ := found
  have octetBound := octet.toNat_lt
  have classBits := TagClass.bits_ofBits (octet.toNat / 64) (by omega)
  rw [← UInt8.toNat_inj, Identifier.octet, UInt8.toNat_ofNat', classBits]
  by_cases constructed : octet.toNat / 32 % 2 = 1
  · simp only [constructed, decide_true, Bool.toNat_true]
    omega
  · simp only [constructed, decide_false, Bool.toNat_false]
    omega

theorem ofOctet?_eq_some_iff {octet : UInt8} {identifier : Identifier} :
    ofOctet? octet = some identifier ↔ octet = identifier.octet := by
  constructor
  · exact eq_octet_of_ofOctet?
  · rintro rfl
    exact ofOctet?_octet identifier

theorem octet_injective {left right : Identifier} (same : left.octet = right.octet) :
    left = right := by
  have read := ofOctet?_octet left
  rw [same, ofOctet?_octet] at read
  exact (Option.some.inj read).symm

theorem scan_eq_ok_iff {all rest : Octets} {identifier : Identifier} :
    scan all = .ok identifier rest ↔ all = identifier.octet :: rest := by
  rw [scan, Scan.bind_eq_ok_iff]
  constructor
  · rintro ⟨octet, between, taken, accepted⟩
    rw [Scan.accept_eq_ok_iff, ofOctet?_eq_some_iff] at accepted
    rw [Scan.octet_eq_ok_iff] at taken
    rw [taken, accepted.1, accepted.2]
  · rintro rfl
    refine ⟨identifier.octet, rest, rfl, ?_⟩
    rw [ofOctet?_octet]
    rfl

end Identifier

end Asn1
