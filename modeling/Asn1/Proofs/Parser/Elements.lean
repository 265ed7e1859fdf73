import Asn1.Proofs.Encoding.Places
import Asn1.Proofs.Parser.Calls
import Mathlib.Logic.Function.Iterate

/-!
# Elements on their own

The content of a constructed value can be given to a parser one level deeper. It decodes the
elements of the value, one with each call, and then there is nothing left but an end marker.
-/

namespace Asn1

theorem Options.iterate_deeper (options : Options) (count : Nat) :
    deeper^[count] options = { options with depth := options.depth + count } := by
  induction count with
  | zero => rfl
  | succ count inductionHypothesis =>
      rw [Function.iterate_succ_apply', inductionHypothesis]
      rfl

namespace Parser

open Encoding (octets)
open Value (headerSize)

/-- A parser in front of a series of encodings decodes one with each call. -/
theorem answers_replicate_parse {parser : Parser} (valid : parser.isValid = true)
    {elements : List Encoding} {tail : Octets}
    (follow : ∀ element ∈ elements,
      element.Follows parser.options.mode parser.options.toTextOptions parser.options.depth)
    (split : parser.reader.rest = elements.flatMap octets ++ tail) :
    (parser.answers (List.replicate elements.length .parse)).map Answer.result =
        elements.map (fun element => .ok element.value) ∧
      parser.after (List.replicate elements.length .parse) =
        { parser with reader := parser.reader.leaving tail.length } := by
  induction elements generalizing parser with
  | nil =>
      have stays := Reader.leaving_length_rest parser.reader
      rw [split, List.flatMap_nil, List.nil_append] at stays
      rw [stays]
      exact ⟨rfl, rfl⟩
  | cons element elements inductionHypothesis =>
      rw [List.forall_mem_cons] at follow
      rw [List.flatMap_cons, List.append_assoc] at split
      have scanned := Encoding.scan_octets follow.1 (elements.flatMap octets ++ tail)
      rw [← split] at scanned
      have first := parse_of_ok valid scanned
      have later := @inductionHypothesis
        { parser with reader := parser.reader.leaving (elements.flatMap octets ++ tail).length }
        valid follow.2 (Reader.rest_leaving split)
      rw [List.length_cons, List.replicate_succ, answers, after, answer, first]
      exact ⟨congrArg (_ :: ·) later.1, later.2⟩

theorem scan_endMarker {options : Options} (ber : options.mode = .ber)
    (within : options.depth ≤ Options.depthLimit) {ending : Octets}
    (announces : Length.Announces ending 0) :
    Value.scan options (0x00 :: ending) = .error .invalidFormat [] := by
  have reads := Encoding.reads_itemScan options.mode options.toTextOptions options.depth
  have isEnding : Encoding.IsEnding options.mode ending :=
    ⟨announces, fun der => by simp [ber] at der⟩
  have found := reads.end_iff.mpr ⟨within, ending, isEnding, by rw [List.append_nil]⟩
  rw [Value.scan, Scan.bind_apply, Options.levels, found]
  rfl

/-- What a parser at the start of a node's content answers: the elements, one with each call. Then
no data is left but for the end marker of an indefinite length, at which the parser fails. -/
structure YieldsElements (parser : Parser) (node : Encoding) (elements : List Value) : Prop where
  results : (parser.answers (List.replicate elements.length .parse)).map Answer.result =
    elements.map .ok
  covered : node.isIndefinite = false →
    (parser.after (List.replicate elements.length .parse)).reader.hasUnconsumedData = false
  ends : node.isIndefinite = true →
    (parser.after (List.replicate elements.length .parse)).parse.result = .error .invalidFormat ∧
      (parser.after (List.replicate elements.length .parse)).parse.events =
        [.rejected parser.options.mode (node.elements.flatMap octets).length .invalidFormat]

theorem yieldsElements {options : Options} {node : Encoding}
    (follows : node.Follows options.mode options.toTextOptions options.depth)
    (constructed : node.identifier.constructed = true) :
    YieldsElements (new node.content options.deeper) node (node.elements.map Encoding.value) := by
  have split : (new node.content options.deeper).reader.rest =
      node.elements.flatMap octets ++ node.endMarker := Encoding.content_of_constructed constructed
  have run := @answers_replicate_parse (new node.content options.deeper) rfl node.elements
    node.endMarker (fun element membership => follows.of_mem_elements membership) split
  rw [← List.length_map Encoding.value] at run
  refine ⟨?_, ?_, ?_⟩
  · rw [run.1, List.map_map]
    rfl
  · intro notIndefinite
    have noMarker : node.endMarker = [] := by
      cases node with
      | primitive => rfl
      | definite => rfl
      | indefinite => cases notIndefinite
    have unread := Reader.hasUnconsumedData_leaving_iff split
    rw [run.2]
    apply Bool.eq_false_iff.mpr
    intro left
    exact unread.mp left noMarker
  · intro isIndefinite
    cases node with
    | primitive => cases isIndefinite
    | definite => cases isIndefinite
    | indefinite tag elements ending =>
        obtain ⟨ber, within, -, announces, -⟩ := Encoding.follows_indefinite_iff.mp follows
        have scanned : Value.scan options.deeper
            ((new (Encoding.indefinite tag elements ending).content options.deeper).reader.leaving
              (Encoding.indefinite tag elements ending).endMarker.length).rest =
            .error .invalidFormat [] := by
          rw [Reader.rest_leaving split]
          exact @scan_endMarker options.deeper ber within ending announces
        rw [run.2, parse_of_error rfl scanned, Reader.pos_leaving split]
        exact ⟨rfl, by simp [new, Encoding.elements, Reader.ofOctets]⟩

/-- The content of a constructed value, and what it decodes to on its own. -/
structure IsTiled (options : Options) (place : Value.Place) (node : Encoding) : Prop where
  elements_eq : place.value.elements = node.elements.map Encoding.value
  follow : ∀ element ∈ node.elements,
    element.Follows options.mode options.toTextOptions (options.depth + place.depth + 1)
  body_eq : place.value.body = node.elements.flatMap octets ++ node.endMarker
  endMarker_eq : if node.isIndefinite then
      ∃ ending, node.endMarker = 0x00 :: ending ∧ Length.Announces ending 0
    else
      node.endMarker = []
  yieldsElements : YieldsElements
    (new place.value.body (Options.deeper^[place.depth] options).deeper) node place.value.elements

theorem endMarker_of_follows {mode : Mode} {options : TextOptions} {level : Nat} {node : Encoding}
    (follows : node.Follows mode options level) :
    if node.isIndefinite then
      ∃ ending, node.endMarker = 0x00 :: ending ∧ Length.Announces ending 0
    else
      node.endMarker = [] := by
  cases node with
  | primitive => rfl
  | definite => rfl
  | indefinite tag elements ending =>
      obtain ⟨-, -, -, announces, -⟩ := Encoding.follows_indefinite_iff.mp follows
      exact ⟨ending, rfl, announces⟩

theorem isTiled_of_isAt {options : Options} {data : Octets} {place : Value.Place} {node : Encoding}
    (isAt : Encoding.IsAt options data place node)
    (constructed : place.value.isConstructed = true) : IsTiled options place node := by
  have isConstructed : node.identifier.constructed = true := by
    rw [← isAt.follows.1.isConstructed_value, isAt.value_eq, constructed]
  have elements : place.value.elements = node.elements.map Encoding.value := by
    rw [← isAt.value_eq, Encoding.value_of_constructed isConstructed]
    rfl
  have body : place.value.body = node.content := by
    rw [← isAt.value_eq, Encoding.body_value]
  have alone := @yieldsElements (Options.deeper^[place.depth] options) node
    (by rw [Options.iterate_deeper]; exact isAt.follows) isConstructed
  rw [← elements, ← body] at alone
  exact {
    elements_eq := elements
    follow := fun element membership => isAt.follows.of_mem_elements membership
    body_eq := by rw [body, Encoding.content_of_constructed isConstructed]
    endMarker_eq := endMarker_of_follows isAt.follows
    yieldsElements := alone }

/-- A decoded value consists of what its places hold. The content of each node is the slice of the
data at its place. That of a constructed node is the encodings of its elements without a gap, then
an end marker if its length is indefinite, and a parser one level deeper yields the elements from
the content alone. There is at most one node for every two octets. -/
theorem decode_tiles {options : Options} {data : Octets} {value : Value}
    (decoded : options.decode data = .ok value) :
    (value.outline 0 (headerSize data)).map Value.Place.value = value.nodes ∧
    (∀ place ∈ value.outline 0 (headerSize data),
      place.value.body = (data.drop place.start).take place.value.body.length ∧
      ∃ node, Encoding.IsAt options data place node ∧
        (place.value.isConstructed = true → IsTiled options place node)) ∧
    2 * value.nodes.length ≤ data.length := by
  obtain ⟨encoding, follows, rfl, rfl⟩ := decode_eq_ok_iff.mp decoded
  have size := follows.1.headerSize_octets []
  rw [List.append_nil] at size
  refine ⟨Value.map_value_outline _ _ _, ?_, ?_⟩
  · intro place membership
    rw [size, ← Nat.zero_add encoding.header.length] at membership
    obtain ⟨node, isAt⟩ := @Encoding.Follows.exists_isAt options encoding 0 follows [] [] place
      membership
    rw [List.nil_append, List.append_nil] at isAt
    exact ⟨isAt.body_eq, node, isAt, isTiled_of_isAt isAt⟩
  · rw [follows.1.nodes_value, List.length_map]
    exact follows.1.two_mul_length_nodes_le

/-- A sequence of definite length in one of indefinite length. -/
theorem decode_tiles_nested_sequences :
    ∃ value,
      Options.decode { mode := .ber } [0x30, 0x80, 0x30, 0x02, 0x05, 0x00, 0x00, 0x00] =
        .ok value ∧
      2 * value.nodes.length ≤ 8 ∧
      ∃ node, IsTiled { mode := .ber } ⟨0, 2, value⟩ node := by
  have decoded :
      Options.decode { mode := .ber } [0x30, 0x80, 0x30, 0x02, 0x05, 0x00, 0x00, 0x00] =
        .ok (.constructed .sequence [0x30, 0x02, 0x05, 0x00, 0x00, 0x00]
          [.constructed .sequence [0x05, 0x00] [.generic .null []]]) := by decide +kernel
  have tiles := decode_tiles decoded
  obtain ⟨-, node, -, tiled⟩ := tiles.2.1 _ List.mem_cons_self
  exact ⟨_, decoded, tiles.2.2, node, tiled rfl⟩

end Parser

end Asn1
