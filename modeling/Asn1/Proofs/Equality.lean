import Asn1.Proofs.Encoding.Content
import Asn1.Proofs.Parser

/-!
# Equality of decoded values

How data was decoded has no influence on equality: by whichever rules, at whatever depth and with
whichever forms of lengths, values differ only if their tags, their forms or their contents do.
-/

namespace Asn1

/-- Whether the length octets behind the identifier announce that the content goes on until an end
marker. -/
def HasIndefiniteLength (data : Octets) : Prop :=
  ∃ rest, Length.scan .ber data.tail = .ok .indefinite rest

namespace Encoding

theorem IsBer.hasIndefiniteLength_octets_iff {options : TextOptions} {level : Nat}
    {encoding : Encoding} (ber : encoding.IsBer options level) :
    HasIndefiniteLength encoding.octets ↔ encoding.isIndefinite = true := by
  simp only [HasIndefiniteLength, Length.scan_eq_indefinite_iff, true_and]
  cases ber with
  | @primitive _ length value _ announces =>
      rw [octets_primitive, List.tail_cons]
      constructor
      · rintro ⟨rest, same⟩
        exact absurd same announces.ne_indefinite
      · nofun
  | definite _ _ announces =>
      rw [octets_definite, List.tail_cons]
      constructor
      · rintro ⟨rest, same⟩
        exact absurd same announces.ne_indefinite
      · nofun
  | indefinite =>
      rw [octets_indefinite, List.tail_cons]
      exact ⟨fun _ => rfl, fun _ => ⟨_, rfl⟩⟩

end Encoding

namespace Value

theorem beq_iff_eq {left right : Value} : beq left right = true ↔ left = right := by
  constructor
  · exact eq_of_beq left right
  · rintro rfl
    exact beq_self left

end Value

namespace Parser

/-- Values decoded with the same text options are equal if and only if they have the same tag, are
both constructed or both primitive, and have the same content. Constructed values with the same
content have the same elements, whatever their tags are, and their lengths are both definite or both
indefinite. -/
theorem decoded_beq_iff {left right : Options}
    (sameText : left.toTextOptions = right.toTextOptions) {leftData rightData : Octets}
    {leftValue rightValue : Value} (leftDecoded : left.decode leftData = .ok leftValue)
    (rightDecoded : right.decode rightData = .ok rightValue) :
    (leftValue.beq rightValue = true ↔
      leftValue.tag = rightValue.tag ∧ leftValue.isConstructed = rightValue.isConstructed ∧
        leftValue.body = rightValue.body) ∧
    (leftValue.isConstructed = true → rightValue.isConstructed = true →
      leftValue.body = rightValue.body →
        leftValue.elements = rightValue.elements ∧
        (HasIndefiniteLength leftData ↔ HasIndefiniteLength rightData)) := by
  obtain ⟨encoding, ⟨ber, -⟩, rfl, rfl⟩ := decode_eq_ok_iff.mp leftDecoded
  obtain ⟨other, ⟨otherBer, -⟩, rfl, rfl⟩ := decode_eq_ok_iff.mp rightDecoded
  rw [← sameText] at otherBer
  refine ⟨Value.beq_iff_eq.trans (ber.value_eq_iff otherBer), ?_⟩
  intro constructed otherConstructed sameBody
  rw [ber.isConstructed_value] at constructed
  rw [otherBer.isConstructed_value] at otherConstructed
  rw [Encoding.body_value, Encoding.body_value] at sameBody
  rcases ber.elements_eq_of_content_eq otherBer constructed otherConstructed sameBody with
    ⟨sameElements, sameEnd⟩
  constructor
  · rw [Encoding.value_of_constructed constructed, Encoding.value_of_constructed otherConstructed,
      Value.elements, Value.elements, sameElements]
  · rw [ber.hasIndefiniteLength_octets_iff, otherBer.hasIndefiniteLength_octets_iff,
      Encoding.isIndefinite_iff_endMarker_ne_nil, Encoding.isIndefinite_iff_endMarker_ne_nil,
      sameEnd]

/-- A set of a null by distinguished rules, and with a long form of its length by basic rules three
levels deeper. -/
theorem decoded_beq_sets_of_null :
    ∃ left right : Value,
      Options.decode {} [0x31, 0x02, 0x05, 0x00] = .ok left ∧
      Options.decode { mode := .ber, depth := 3 } [0x31, 0x81, 0x02, 0x05, 0x00] = .ok right ∧
      left.beq right = true ∧ left.elements = right.elements := by
  have decoded : Options.decode {} [0x31, 0x02, 0x05, 0x00] =
      .ok (.constructed .set [0x05, 0x00] [.generic .null []]) := by decide +kernel
  have otherDecoded : Options.decode { mode := .ber, depth := 3 } [0x31, 0x81, 0x02, 0x05, 0x00] =
      .ok (.constructed .set [0x05, 0x00] [.generic .null []]) := by decide +kernel
  have sameText : ({} : Options).toTextOptions =
      ({ mode := .ber, depth := 3 } : Options).toTextOptions := rfl
  have equality := decoded_beq_iff sameText decoded otherDecoded
  exact ⟨_, _, decoded, otherDecoded, equality.1.mpr ⟨rfl, rfl, rfl⟩,
    (equality.2 rfl rfl rfl).1⟩

end Parser

end Asn1
