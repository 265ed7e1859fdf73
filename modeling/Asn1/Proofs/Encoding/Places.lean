import Asn1.Value.Outline
import Asn1.Proofs.Encoding.Content
import Asn1.Proofs.Value.Tree

/-!
# Where nodes are

The outline of a decoded value finds each node at the place where its encoding is in the data. Each
node takes two octets of its own at least.
-/

namespace Asn1

namespace Value

theorem outline_of_leaf {value : Value} (leaf : value.isConstructed = false) (depth start : Nat) :
    value.outline depth start = [⟨depth, start, value⟩] := by
  cases value with
  | constructed => cases leaf
  | _ => rw [outline]; nofun

theorem map_value_outlines {values : List Value} {depth : Nat}
    (each : ∀ value ∈ values, ∀ start, (value.outline depth start).map Place.value = value.nodes)
    (start : Nat) (content : Octets) :
    (outlines depth start content values).map Place.value = values.flatMap nodes := by
  induction values generalizing start content with
  | nil => rfl
  | cons value values inductionHypothesis =>
      rw [List.forall_mem_cons] at each
      rw [outlines, List.map_append, each.1, inductionHypothesis each.2, List.flatMap_cons]

theorem map_value_outline (value : Value) (depth start : Nat) :
    (value.outline depth start).map Place.value = value.nodes := by
  induction value using Value.induction generalizing depth start with
  | leaf value leaf => rw [outline_of_leaf leaf, nodes_of_leaf leaf]; rfl
  | constructed tag body elements inductionHypothesis =>
      rw [outline, nodes, List.map_cons, map_value_outlines fun element membership start =>
        inductionHypothesis element membership (depth + 1) start]

end Value

namespace Encoding

open Value (headerSize outlines)

variable {options : TextOptions} {level : Nat}

theorem IsBer.scan_header {encoding : Encoding} (ber : encoding.IsBer options level)
    (rest : Octets) :
    ∃ length, (Identifier.scan *> Length.scan .ber) (encoding.octets ++ rest) =
      .ok length (encoding.content ++ rest) := by
  simp only [seqRight_eq_bind, Scan.bind_eq_ok_iff, Identifier.scan_eq_ok_iff]
  cases ber with
  | @primitive _ length value _ announces =>
      refine ⟨_, ⟨value.tag, false⟩, length ++ (value.body ++ rest), ?_, announces.scan_ber _⟩
      simp
  | @definite _ tag length elements _ _ announces =>
      refine ⟨_, ⟨tag, true⟩, length ++ (elements.flatMap octets ++ rest), ?_,
        announces.scan_ber _⟩
      simp
  | @indefinite _ tag elements ending =>
      refine ⟨_, ⟨tag, true⟩, 0x80 :: (elements.flatMap octets ++ 0x00 :: ending ++ rest), ?_,
        Length.scan_eq_indefinite_iff.mpr ⟨rfl, rfl⟩⟩
      simp

theorem IsBer.headerSize_octets {encoding : Encoding} (ber : encoding.IsBer options level)
    (rest : Octets) : headerSize (encoding.octets ++ rest) = encoding.header.length := by
  obtain ⟨length, scanned⟩ := ber.scan_header rest
  rw [headerSize, scanned, octets_eq_header_append_content]
  simp [Scan.left]

/-- A node of the data: its encoding is at that place, and may be there. -/
structure IsAt (options : Options) (data : Octets) (place : Value.Place) (node : Encoding) :
    Prop where
  value_eq : node.value = place.value
  follows : node.Follows options.mode options.toTextOptions (options.depth + place.depth)
  split : ∃ before after,
    data = before ++ (node.octets ++ after) ∧ place.start = before.length + node.header.length

theorem IsAt.body_eq {options : Options} {data : Octets} {place : Value.Place} {node : Encoding}
    (isAt : IsAt options data place node) :
    place.value.body = (data.drop place.start).take place.value.body.length := by
  obtain ⟨before, after, rfl, start⟩ := isAt.split
  rw [← isAt.value_eq, body_value, start, octets_eq_header_append_content, List.append_assoc,
    ← List.drop_drop, List.drop_left, List.drop_left, List.take_left]

theorem exists_isAt_of_mem_outlines {options : Options} {depth : Nat} {elements : List Encoding}
    (each : ∀ element ∈ elements, ∀ (before after : Octets),
      ∀ place ∈ element.value.outline depth (before.length + element.header.length),
        ∃ node, IsAt options (before ++ (element.octets ++ after)) place node)
    (ber : ∀ element ∈ elements, element.IsBer options.toTextOptions level)
    (before tail after : Octets) {place : Value.Place}
    (membership : place ∈
      outlines depth before.length (elements.flatMap octets ++ tail) (elements.map value)) :
    ∃ node, IsAt options (before ++ (elements.flatMap octets ++ (tail ++ after))) place node := by
  induction elements generalizing before with
  | nil => cases membership
  | cons element elements inductionHypothesis =>
      rw [List.forall_mem_cons] at each ber
      have size : element.header.length + element.value.body.length = element.octets.length := by
        rw [octets_eq_header_append_content, List.length_append, body_value]
      have next : before.length + element.octets.length = (before ++ element.octets).length :=
        List.length_append.symm
      rw [List.map_cons, outlines, List.flatMap_cons, List.append_assoc,
        ber.1.headerSize_octets, size, List.drop_left, next, List.mem_append] at membership
      rcases membership with inFirst | inLater
      · have found := each.1 before (elements.flatMap octets ++ (tail ++ after)) place inFirst
        simpa using found
      · have found := inductionHypothesis each.2 ber.2 (before ++ element.octets) inLater
        simpa using found

/-- Each place of the outline holds a node of the encoding. -/
theorem Follows.exists_isAt {options : Options} {encoding : Encoding} {depth : Nat}
    (follows : encoding.Follows options.mode options.toTextOptions (options.depth + depth))
    (before after : Octets) {place : Value.Place}
    (membership : place ∈ encoding.value.outline depth (before.length + encoding.header.length)) :
    ∃ node, IsAt options (before ++ (encoding.octets ++ after)) place node := by
  induction encoding using elementsInduction generalizing depth before after place with
  | step encoding inductionHypothesis =>
      have here : IsAt options (before ++ (encoding.octets ++ after))
          ⟨depth, before.length + encoding.header.length, encoding.value⟩ encoding :=
        ⟨rfl, follows, before, after, rfl, rfl⟩
      cases constructed : encoding.identifier.constructed with
      | false =>
          have leaf : encoding.value.isConstructed = false := by
            rw [follows.1.isConstructed_value, constructed]
          rw [Value.outline_of_leaf leaf, List.mem_singleton] at membership
          subst membership
          exact ⟨encoding, here⟩
      | true =>
          rw [value_of_constructed constructed] at here membership
          rw [Value.outline] at membership
          rcases List.mem_cons.mp membership with rfl | nested
          · exact ⟨encoding, here⟩
          · rw [content_of_constructed constructed, ← List.length_append] at nested
            have found := exists_isAt_of_mem_outlines
              (fun element isElement before after place inside => inductionHypothesis element
                isElement (follows.of_mem_elements isElement) before after inside)
              (fun element isElement => follows.1.of_mem_elements isElement)
              (before ++ encoding.header) encoding.endMarker after nested
            rw [octets_eq_header_append_content, content_of_constructed constructed]
            simpa using found

theorem IsBer.two_le_length_header {encoding : Encoding} (ber : encoding.IsBer options level) :
    2 ≤ encoding.header.length := by
  cases ber with
  | primitive _ announces =>
      have written := List.length_pos_iff.mpr announces.ne_nil
      rw [header, List.length_append, List.length_singleton]
      omega
  | definite _ _ announces =>
      have written := List.length_pos_iff.mpr announces.ne_nil
      rw [header, List.length_append, List.length_singleton]
      omega
  | indefinite => exact Nat.le_refl 2

theorem length_flatMap_octets_le (encoding : Encoding) :
    (encoding.elements.flatMap octets).length ≤ encoding.content.length := by
  cases encoding with
  | primitive => simp [elements]
  | definite => simp [elements, content]
  | indefinite => simp [elements, content]

theorem two_mul_length_flatMap_nodes_le {elements : List Encoding}
    (each : ∀ element ∈ elements, 2 * element.nodes.length ≤ element.octets.length) :
    2 * (elements.flatMap nodes).length ≤ (elements.flatMap octets).length := by
  induction elements with
  | nil => exact Nat.le_refl 0
  | cons element elements inductionHypothesis =>
      rw [List.forall_mem_cons] at each
      have later := inductionHypothesis each.2
      rw [List.flatMap_cons, List.flatMap_cons, List.length_append, List.length_append]
      omega

theorem IsBer.two_mul_length_nodes_le {encoding : Encoding} (ber : encoding.IsBer options level) :
    2 * encoding.nodes.length ≤ encoding.octets.length := by
  induction encoding using elementsInduction generalizing level with
  | step encoding inductionHypothesis =>
      have own := ber.two_le_length_header
      have series := length_flatMap_octets_le encoding
      have nested := two_mul_length_flatMap_nodes_le fun element membership =>
        inductionHypothesis element membership (ber.of_mem_elements membership)
      rw [nodes_eq, octets_eq_header_append_content, List.length_cons, List.length_append]
      omega

theorem IsBer.nodes_value {encoding : Encoding} (ber : encoding.IsBer options level) :
    encoding.value.nodes = encoding.nodes.map value := by
  induction encoding using elementsInduction generalizing level with
  | step encoding inductionHypothesis =>
      rw [nodes_eq, List.map_cons, List.map_flatMap]
      cases constructed : encoding.identifier.constructed with
      | false =>
          have leaf : encoding.value.isConstructed = false := by
            rw [ber.isConstructed_value, constructed]
          rw [Value.nodes_of_leaf leaf, elements_of_primitive constructed]
          rfl
      | true =>
          have nested : (encoding.elements.map value).flatMap Value.nodes =
              encoding.elements.flatMap fun element => element.nodes.map value := by
            rw [List.flatMap_map]
            apply List.flatMap_congr
            intro element membership
            exact inductionHypothesis element membership (ber.of_mem_elements membership)
          rw [value_of_constructed constructed, Value.nodes, nested]

end Encoding

end Asn1
