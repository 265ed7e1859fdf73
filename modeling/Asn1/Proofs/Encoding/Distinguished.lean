import Asn1.Proofs.Parser
import Asn1.Proofs.Value.Tree

/-!
# Distinguished encodings

Under distinguished rules a value leaves no choice for its encoding: it is that of `Value.encode`.
Which values have one depends on their height and on rules for each node.
-/

namespace Asn1

namespace Value

/-- What distinguished rules demand of one node. The content of a constructed value is made up of
the encodings of its elements. -/
def FollowsRules (options : TextOptions) : Value → Prop
  | constructed tag body elements =>
      body = elements.flatMap encode ∧
        (tag.tagClass = .universal → tag = .sequence ∨ tag = .set) ∧
        (tag = .set → (elements.map Value.body).Pairwise (· ≤ ·))
  | value => value.IsPrimitive .der options

/-- The values that distinguished rules can encode, unless they are too high. -/
def IsDistinguished (options : TextOptions) (value : Value) : Prop :=
  ∀ node ∈ value.nodes, node.body.length < 2 ^ 64 ∧ node.FollowsRules options

theorem followsRules_of_leaf {options : TextOptions} {value : Value}
    (leaf : value.isConstructed = false) :
    value.FollowsRules options ↔ value.IsPrimitive .der options := by
  cases value with
  | constructed => cases leaf
  | _ => rfl

theorem isDistinguished_of_leaf {options : TextOptions} {value : Value}
    (leaf : value.isConstructed = false) :
    value.IsDistinguished options ↔
      value.body.length < 2 ^ 64 ∧ value.IsPrimitive .der options := by
  rw [IsDistinguished, nodes_of_leaf leaf, List.forall_mem_singleton, followsRules_of_leaf leaf]

theorem isDistinguished_constructed_iff {options : TextOptions} {tag : Tag} {body : Octets}
    {elements : List Value} :
    (constructed tag body elements).IsDistinguished options ↔
      body.length < 2 ^ 64 ∧ (constructed tag body elements).FollowsRules options ∧
        ∀ element ∈ elements, element.IsDistinguished options := by
  rw [IsDistinguished, forall_mem_nodes_constructed_iff, Value.body, and_assoc]
  rfl

end Value

namespace Encoding

def ofValue : Value → Encoding
  | .constructed tag _ elements =>
      definite tag (Length.encode (elements.flatMap Value.encode).length) (elements.map ofValue)
  | value => primitive (Length.encode value.body.length) value

theorem ofValue_of_leaf {value : Value} (leaf : value.isConstructed = false) :
    ofValue value = primitive (Length.encode value.body.length) value := by
  cases value with
  | constructed => cases leaf
  | _ => rw [ofValue]; nofun

theorem flatMap_octets_map_ofValue {elements : List Value}
    (sameOctets : ∀ element ∈ elements, (ofValue element).octets = element.encode) :
    (elements.map ofValue).flatMap octets = elements.flatMap Value.encode := by
  rw [List.flatMap_map]
  exact List.flatMap_congr sameOctets

theorem octets_ofValue (value : Value) : (ofValue value).octets = value.encode := by
  induction value using Value.induction with
  | leaf value leaf =>
      rw [ofValue_of_leaf leaf, Value.encode_of_leaf leaf, octets_primitive, Value.framed]
  | constructed tag body elements inductionHypothesis =>
      rw [ofValue, octets_definite, Value.encode, Value.framed,
        flatMap_octets_map_ofValue inductionHypothesis]

theorem value_ofValue_constructed_iff {tag : Tag} {body : Octets} {elements : List Value} :
    (ofValue (.constructed tag body elements)).value = .constructed tag body elements ↔
      body = elements.flatMap Value.encode ∧
        ∀ element ∈ elements, (ofValue element).value = element := by
  have sameElements : elements.map (value ∘ ofValue) = elements ↔
      ∀ element ∈ elements, (ofValue element).value = element := by
    simpa using List.map_inj_left (l := elements) (f := value ∘ ofValue) (g := id)
  rw [ofValue, value_definite, flatMap_octets_map_ofValue fun element _ => octets_ofValue element,
    List.map_map, Value.constructed.injEq, sameElements]
  simp only [true_and, eq_comm]

variable {options : TextOptions} {level : Nat}

theorem ofValue_constructed_follows_iff {tag : Tag} {body : Octets} {elements : List Value}
    (sameValues : ∀ element ∈ elements, (ofValue element).value = element) :
    (ofValue (.constructed tag body elements)).Follows .der options level ↔
      level ≤ Options.depthLimit ∧ (elements.flatMap Value.encode).length < 2 ^ 64 ∧
        (tag.tagClass = .universal → tag = .sequence ∨ tag = .set) ∧
        (tag = .set → (elements.map Value.body).Pairwise (· ≤ ·)) ∧
        ∀ element ∈ elements, (ofValue element).Follows .der options (level + 1) := by
  have sameContents : (elements.map ofValue).map content = elements.map Value.body := by
    rw [List.map_map]
    apply List.map_congr_left
    intro element membership
    rw [Function.comp_apply, ← body_value, sameValues element membership]
  rw [ofValue, follows_definite_iff, Value.mayBeConstructed_der_iff, sameContents,
    flatMap_octets_map_ofValue fun element _ => octets_ofValue element, List.forall_mem_map]
  constructor
  · rintro ⟨within, announces, -, restricted, ordered, elementsFollow⟩
    exact ⟨within, announces.lt, restricted, ordered rfl, elementsFollow⟩
  · rintro ⟨within, bound, restricted, ordered, elementsFollow⟩
    exact ⟨within, Length.announces_encode bound, fun _ => Length.shortest_encode bound, restricted,
      fun _ => ordered, elementsFollow⟩

/-- Which values have an encoding that follows distinguished rules at a level. -/
theorem ofValue_follows_iff {value : Value} :
    (ofValue value).Follows .der options level ∧ (ofValue value).value = value ↔
      level + value.height ≤ Options.depthLimit ∧ value.IsDistinguished options := by
  induction value using Value.induction generalizing level with
  | leaf value leaf =>
      rw [ofValue_of_leaf leaf, follows_primitive_iff, Value.height_of_leaf leaf,
        Value.isDistinguished_of_leaf leaf, value_primitive]
      constructor
      · rintro ⟨⟨within, announces, -, isPrimitive⟩, -⟩
        exact ⟨within, announces.lt, isPrimitive⟩
      · rintro ⟨within, bound, isPrimitive⟩
        exact ⟨⟨within, Length.announces_encode bound, fun _ => Length.shortest_encode bound,
          isPrimitive⟩, rfl⟩
  | constructed tag body elements inductionHypothesis =>
      rw [Value.add_height_constructed_le_iff, Value.isDistinguished_constructed_iff]
      constructor
      · rintro ⟨follows, sameValue⟩
        obtain ⟨rfl, sameValues⟩ := value_ofValue_constructed_iff.mp sameValue
        rcases (ofValue_constructed_follows_iff sameValues).mp follows with
          ⟨within, bound, restricted, ordered, elementsFollow⟩
        have each := fun element membership => (inductionHypothesis element membership).mp
          ⟨elementsFollow element membership, sameValues element membership⟩
        exact ⟨⟨within, fun element membership => (each element membership).1⟩, bound,
          ⟨rfl, restricted, ordered⟩, fun element membership => (each element membership).2⟩
      · rintro ⟨⟨within, heights⟩, bound, ⟨rfl, restricted, ordered⟩, distinguished⟩
        have each := fun element membership => (inductionHypothesis element membership).mpr
          ⟨heights element membership, distinguished element membership⟩
        have sameValues := fun element membership => (each element membership).2
        exact ⟨(ofValue_constructed_follows_iff sameValues).mpr ⟨within, bound, restricted, ordered,
          fun element membership => (each element membership).1⟩,
          value_ofValue_constructed_iff.mpr ⟨rfl, sameValues⟩⟩

theorem Follows.ofValue_value {encoding : Encoding}
    (follows : encoding.Follows .der options level) : ofValue encoding.value = encoding := by
  induction encoding generalizing level with
  | primitive length value =>
      obtain ⟨-, -, shortest, isPrimitive⟩ := follows_primitive_iff.mp follows
      rw [value_primitive, ofValue_of_leaf isPrimitive.isConstructed_eq_false,
        (Length.shortest_iff.mp (shortest rfl)).2]
  | definite tag length elements inductionHypothesis =>
      obtain ⟨-, -, shortest, -, -, elementsFollow⟩ := follows_definite_iff.mp follows
      have sameElements : ∀ element ∈ elements, ofValue element.value = element :=
        fun element membership => inductionHypothesis element membership
          (elementsFollow element membership)
      have sameContent : (elements.map value).flatMap Value.encode = elements.flatMap octets := by
        rw [List.flatMap_map]
        apply List.flatMap_congr
        intro element membership
        rw [← octets_ofValue, sameElements element membership]
      have sameSeries : (elements.map value).map ofValue = elements := by
        rw [List.map_map]
        exact (List.map_congr_left sameElements).trans elements.map_id
      rw [value_definite, ofValue, sameContent, ← (Length.shortest_iff.mp (shortest rfl)).2,
        sameSeries]
  | indefinite tag elements ending inductionHypothesis =>
      cases (follows_indefinite_iff.mp follows).1

end Encoding

namespace Parser

theorem decode_der_eq_ok_iff {options : Options} (der : options.mode = .der) {data : Octets}
    {value : Value} :
    options.decode data = .ok value ↔
      data = value.encode ∧ options.depth + value.height ≤ Options.depthLimit ∧
        value.IsDistinguished options.toTextOptions := by
  rw [decode_eq_ok_iff, der, ← Encoding.ofValue_follows_iff]
  constructor
  · rintro ⟨encoding, follows, rfl, rfl⟩
    have same := follows.ofValue_value
    refine ⟨?_, ?_, ?_⟩
    · rw [← Encoding.octets_ofValue, same]
    · rwa [same]
    · rw [same]
  · rintro ⟨rfl, follows, sameValue⟩
    exact ⟨_, follows, Encoding.octets_ofValue value, sameValue⟩

/-- Under distinguished rules decoding and `Value.encode` are inverse to each other, for values
that are not too high and follow the rules at each node. No other data has the same value, whatever
the other options are. -/
theorem decode_der_inverse_encode :
    (∀ (options : TextOptions) (data : Octets) (value : Value),
      Options.decode { toTextOptions := options, mode := .der, depth := 0 } data = .ok value ↔
        data = value.encode ∧ value.height ≤ Options.depthLimit ∧
          value.IsDistinguished options) ∧
    (∀ (options : TextOptions) (value : Value),
      value.height ≤ Options.depthLimit → value.IsDistinguished options →
        Options.decode { toTextOptions := options, mode := .der, depth := 0 } value.encode =
          .ok value) ∧
    ∀ (left right : Options) (data otherData : Octets) (value : Value),
      left.mode = .der → right.mode = .der → left.decode data = .ok value →
        right.decode otherData = .ok value → data = otherData := by
  refine ⟨fun options data value => ?_, fun options value within distinguished => ?_, ?_⟩
  · rw [decode_der_eq_ok_iff rfl, Nat.zero_add]
  · rw [decode_der_eq_ok_iff rfl, Nat.zero_add]
    exact ⟨rfl, within, distinguished⟩
  · intro left right data otherData value leftDer rightDer decoded otherDecoded
    rw [((decode_der_eq_ok_iff leftDer).mp decoded).1,
      ((decode_der_eq_ok_iff rightDer).mp otherDecoded).1]

theorem decode_der_sequence_of_null :
    ∃ value : Value, value.height = 1 ∧
      Options.decode { mode := .der } [0x30, 0x02, 0x05, 0x00] = .ok value ∧
      ∀ data, Options.decode { mode := .der, depth := 7 } data = .ok value →
        [0x30, 0x02, 0x05, 0x00] = data := by
  have nullEncoded : (Value.generic .null []).encode = [0x05, 0x00] := Value.encode_of_leaf rfl
  have encoded : (Value.constructed .sequence [0x05, 0x00] [.generic .null []]).encode =
      [0x30, 0x02, 0x05, 0x00] := by
    rw [Value.encode, List.flatMap_cons, nullEncoded]
    rfl
  have height : (Value.constructed .sequence [0x05, 0x00] [.generic .null []]).height = 1 := by
    rw [Value.height, List.map_cons, Value.height_of_leaf rfl]
    rfl
  have distinguished :
      (Value.constructed .sequence [0x05, 0x00] [.generic .null []]).IsDistinguished {} := by
    rw [Value.isDistinguished_constructed_iff, List.forall_mem_singleton,
      Value.isDistinguished_of_leaf rfl]
    refine ⟨by decide, ⟨?_, by decide, by decide⟩, by decide, by decide, fun _ => rfl⟩
    rw [List.flatMap_cons, nullEncoded]
    rfl
  have decoded := decode_der_inverse_encode.2.1 {} _ (by rw [height]; decide) distinguished
  rw [encoded] at decoded
  exact ⟨_, height, decoded, fun data otherDecoded =>
    decode_der_inverse_encode.2.2 _ _ _ data _ rfl rfl decoded otherDecoded⟩

end Parser

end Asn1
