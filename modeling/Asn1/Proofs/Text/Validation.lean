import Asn1.Proofs.Encoding.Places
import Asn1.Proofs.Parser.Shortage
import Asn1.Proofs.TextOptions

/-!
# The validation of UTF-8

The rounds of the check end, however the characters lie in them: a round that is full has used up
all but three octets of a chunk at least. So a UTF-8 string is decoded with validation if and only
if its content is the encoding of a text, and this text is what it stands for.
-/

namespace Asn1

namespace Text

/-- A round of the check of UTF-8, with nothing in the chunk. -/
def round (octets : Octets) : Transcoder.Conversion :=
  Transcoder.convert ⟨.utf8⟩ (some chunkSize) [] octets

/-- The answer of the check, if a number of rounds suffices for it. -/
def answerWithin? : Nat → Octets → Option Bool
  | 0, _ => none
  | rounds + 1, octets =>
      match (round octets).error? with
      | none => some true
      | some .outputFull => answerWithin? rounds (round octets).left
      | some _ => some false

variable {octets : Octets}

theorem converts_round (octets : Octets) :
    Transcoder.Converts .utf8 (some chunkSize) octets (round octets) :=
  Transcoder.converts_fill .utf8 (some chunkSize) octets

/-- A chunk with room for any character is not full. -/
theorem le_length_produced_of_outputFull (full : (round octets).error? = some .outputFull) :
    1021 ≤ (round octets).produced.length := by
  have stops := (converts_round octets).stops
  rw [full] at stops
  obtain ⟨char, part, rest, limit, -, -, limited, long⟩ := stops.of_outputFull
  have small := char.utf8Size_le_four
  rw [Option.map_some, Option.some.injEq, chunkSize] at limited
  omega

/-- What a round writes is what it has taken, since both are UTF-8. -/
theorem length_left_of_outputFull (full : (round octets).error? = some .outputFull) :
    (round octets).left.length + 1021 ≤ octets.length := by
  have used := le_length_produced_of_outputFull full
  obtain ⟨chars, taken, encodes, split, produced⟩ := (converts_round octets).takes
  have same : taken = (round octets).produced :=
    (Charset.encodes_utf8_iff.mp encodes).trans produced.symm
  have lengths := congrArg List.length split
  rw [same, List.length_append] at lengths
  omega

/-- One round for every 1021 octets, and one more, suffice: what a full round leaves needs one round
less. -/
theorem answerWithin?_eq_some {rounds : Nat} (enough : octets.length / 1021 < rounds) :
    answerWithin? rounds octets = some (checksUtf8 octets) := by
  obtain ⟨rounds, rfl⟩ := Nat.exists_eq_add_one_of_ne_zero (Nat.ne_zero_of_lt enough)
  fun_induction checksUtf8 octets generalizing rounds with
  | case1 octets first outcome =>
      have ended : (round octets).error? = none := outcome
      rw [answerWithin?, ended]
  | case2 octets first outcome inductionHypothesis =>
      have full : (round octets).error? = some .outputFull := outcome
      have shorter := length_left_of_outputFull full
      have fewer : (round octets).left.length / 1021 < rounds := by omega
      obtain ⟨rounds, rfl⟩ := Nat.exists_eq_add_one_of_ne_zero (Nat.ne_zero_of_lt fewer)
      rw [answerWithin?, full]
      exact inductionHypothesis rounds fewer
  | case3 octets first error notFull outcome =>
      have failed : (round octets).error? = some error := outcome
      rw [answerWithin?, failed]
      cases error with
      | outputFull => exact absurd rfl notFull
      | _ => rfl

theorem checksUtf8_eq_isWellFormed (octets : Octets) :
    checksUtf8 octets = Utf8.isWellFormed octets := by
  rw [Bool.eq_iff_iff, checksUtf8_iff, Utf8.isWellFormed_iff]

theorem ofUtf8_eq_ok_iff {string : String} :
    ofUtf8 octets = .ok string ↔ octets = Utf8.ofString string := by
  rw [← Utf8.decode_eq_ok_iff, ofUtf8]
  cases Utf8.decode octets with
  | ok found => simp
  | error defect => simp

/-- Content without octets is not read differently from other content. -/
theorem decode_eq_of_ne_nil {text : Text} {read : Octets → Except TranscodeError String}
    (nothing : read [] = .ok "") (reads : text.body ≠ [] → text.decode = read text.body) :
    text.decode = read text.body := by
  by_cases empty : text.body = []
  · rw [decode, if_pos empty, empty, nothing]
  · exact reads empty

theorem decode_eq_ofUtf8 {text : Text}
    (isUtf8 : text.tag ∈ [.utf8String, .numericString, .printableString, .ia5String]) :
    text.decode = ofUtf8 text.body := by
  apply decode_eq_of_ne_nil (ofUtf8_eq_ok_iff.mpr rfl)
  intro nonempty
  rw [decode, if_neg nonempty, if_pos isUtf8]

end Text

namespace Encoding

variable {mode : Mode} {options : TextOptions} {level : Nat}

theorem Follows.of_mem_nodes {encoding node : Encoding}
    (follows : encoding.Follows mode options level) (membership : node ∈ encoding.nodes) :
    ∃ deeper, node.Follows mode options deeper := by
  induction encoding using elementsInduction generalizing level with
  | step encoding inductionHypothesis =>
      rw [nodes_eq] at membership
      rcases List.mem_cons.mp membership with same | inside
      · exact ⟨level, same ▸ follows⟩
      · obtain ⟨element, isElement, inElement⟩ := List.mem_flatMap.mp inside
        exact inductionHypothesis element isElement (follows.of_mem_elements isElement) inElement

end Encoding

namespace Value

theorem exists_text_of_isPrimitive {mode : Mode} {options : TextOptions} {value : Value}
    (primitive : value.IsPrimitive mode options) (isText : value.tag ∈ Tag.textTypes) :
    ∃ string, value = .text string := by
  cases value with
  | text string => exact ⟨string, rfl⟩
  | generic tag body => exact absurd (List.mem_append_right _ isText) primitive.1
  | constructed => exact primitive.elim
  | boolean => exact absurd rfl (ne_of_mem_textTypes _ isText).1
  | objectId => exact absurd rfl (ne_of_mem_textTypes _ isText).2.1
  | utcTime => exact absurd rfl (ne_of_mem_textTypes _ isText).2.2.1

end Value

namespace Parser

variable {options : Options} {data body : Octets} {value node : Value}

/-- Everything in a decoded tree that is not constructed obeys the rules for primitive values. -/
theorem isPrimitive_of_mem_nodes (decoded : options.decode data = .ok value)
    (membership : node ∈ value.nodes) (leaf : node.isConstructed = false) :
    node.IsPrimitive options.mode options.toTextOptions := by
  obtain ⟨encoding, follows, -, rfl⟩ := decode_eq_ok_iff.mp decoded
  rw [follows.1.nodes_value] at membership
  obtain ⟨inner, isNode, rfl⟩ := List.mem_map.mp membership
  obtain ⟨deeper, innerFollows⟩ := follows.of_mem_nodes isNode
  cases inner with
  | primitive length value =>
      rw [Encoding.value_primitive]
      exact (Encoding.follows_primitive_iff.mp innerFollows).2.2.2
  | definite => simp [Value.isConstructed] at leaf
  | indefinite => simp [Value.isConstructed] at leaf

/-- A text in a decoded tree is valid with the choices that the tree was decoded with. -/
theorem isPrimitive_of_text_mem_nodes {string : Text} (decoded : options.decode data = .ok value)
    (membership : .text string ∈ value.nodes) :
    string.tag ∈ Tag.textTypes ∧ string.options = options.toTextOptions ∧ string.isValid :=
  isPrimitive_of_mem_nodes decoded membership rfl

theorem scan_text {length : Octets} {tag : Tag} (isText : tag ∈ Tag.textTypes)
    (within : options.depth ≤ Options.depthLimit)
    (accepts : Length.Accepts options.mode (.definite body.length) length) (rest : Octets) :
    Value.scan options ((Identifier.mk tag false).octet :: (length ++ (body ++ rest))) =
      Scan.accept (Value.ofContent? options.mode options.toTextOptions tag body) rest := by
  have notEnd : tag ≠ .endOfContent := by
    intro same
    rw [same] at isText
    exact absurd isText (by decide)
  rw [Value.scan_cons within notEnd, Scan.bind_apply,
    Length.scan_eq_ok_iff.mpr ⟨length, accepts, rfl⟩]
  dsimp only
  rw [Value.content, Scan.bind_apply, Scan.octets_append]
  rfl

/-- A primitive value of a text type is decoded if and only if it is valid. -/
theorem decode_text {length : Octets} {tag : Tag} (isText : tag ∈ Tag.textTypes)
    (within : options.depth ≤ Options.depthLimit)
    (accepts : Length.Accepts options.mode (.definite body.length) length) :
    options.decode ((Identifier.mk tag false).octet :: (length ++ body)) =
      if (Text.mk tag body options.toTextOptions).isValid then
        .ok (.text ⟨tag, body, options.toTextOptions⟩)
      else
        .error .invalidFormat := by
  have scanned := scan_text isText within accepts []
  rw [List.append_nil, Value.ofContent?_of_mem_textTypes isText] at scanned
  by_cases valid : (Text.mk tag body options.toTextOptions).isValid = true
  · rw [if_pos valid] at scanned ⊢
    rw [decode_of_ok scanned, if_pos rfl]
  · rw [if_neg valid] at scanned ⊢
    exact decode_of_error scanned

/-- In a tree that was decoded without validation, what validation demands is demanded of the UTF-8
strings alone. -/
theorem allMeet_iff_of_lax {found : Value} (validates : options.validateUtf8 = true)
    (decoded : ({ options with validateUtf8 := false } : Options).decode data = .ok found) :
    found.AllMeet options.toTextOptions ↔
      ∀ string, .text string ∈ found.nodes → string.tag = .utf8String →
        Utf8.isWellFormed string.body = true := by
  simp only [Utf8.isWellFormed_iff]
  constructor
  · intro meet string membership isUtf8
    exact (meet _ membership rfl).1 validates isUtf8
  · intro each node membership leaf
    have primitive := isPrimitive_of_mem_nodes decoded membership leaf
    by_cases isText : node.tag ∈ Tag.textTypes
    · obtain ⟨string, rfl⟩ := Value.exists_text_of_isPrimitive primitive isText
      obtain ⟨-, same, valid⟩ := primitive
      obtain ⟨tag, body, choices⟩ := string
      cases same
      have meets := (Text.isValid_iff_meets valid).mp valid
      exact ⟨fun _ isUtf8 => each _ membership isUtf8, meets.2⟩
    · exact Value.meets_of_not_mem_textTypes isText

/-- Validation refuses the trees with a UTF-8 string that is not well-formed, and no others. -/
theorem exists_decode_iff_of_lax {found : Value} (validates : options.validateUtf8 = true)
    (decoded : ({ options with validateUtf8 := false } : Options).decode data = .ok found) :
    (∃ value, options.decode data = .ok value) ↔
      ∀ string, .text string ∈ found.nodes → string.tag = .utf8String →
        Utf8.isWellFormed string.body = true := by
  rw [← allMeet_iff_of_lax validates decoded]
  constructor
  · intro accepted
    obtain ⟨value, succeeded⟩ := accepted
    by_contra refused
    have failed : options.decode data = .error .invalidFormat :=
      decode_of_not_allMeet decoded rfl rfl refused
    rw [succeeded] at failed
    cases failed
  · intro meet
    exact ⟨_, decode_of_allMeet decoded rfl rfl meet⟩

/-- A UTF-8 string in a tree that was decoded with validation stands for the text that its content
encodes. -/
theorem exists_decode_of_utf8_mem_nodes {string : Text} (validates : options.validateUtf8 = true)
    (decoded : options.decode data = .ok value) (membership : .text string ∈ value.nodes)
    (isUtf8 : string.tag = .utf8String) :
    ∃ text, string.decode = .ok text ∧ Utf8.ofString text = string.body := by
  obtain ⟨tag, body, choices⟩ := string
  obtain ⟨-, same, valid⟩ := isPrimitive_of_text_mem_nodes decoded membership
  cases same
  cases isUtf8
  obtain ⟨text, written⟩ := Text.isValid_utf8String_iff.mp valid validates
  refine ⟨text, ?_, written.symm⟩
  rw [Text.decode_eq_ofUtf8 List.mem_cons_self]
  exact Text.ofUtf8_eq_ok_iff.mpr written

/-- Validating UTF-8 in rounds is validating it as a whole. The rounds end, and accept the encodings
of texts and nothing else. With validation a primitive UTF-8 string is decoded if and only if its
content is well-formed, and the same holds of all those in a tree. What is then decoded stands for
the text that its content encodes. -/
theorem validation_accepts_well_formed :
    (∀ octets : Octets,
      (∀ rounds, octets.length / 1021 < rounds →
        Text.answerWithin? rounds octets = some (Text.checksUtf8 octets)) ∧
      Text.checksUtf8 octets = Utf8.isWellFormed octets ∧
      (Text.checksUtf8 octets = true ↔ ∃ text, octets = Utf8.ofString text)) ∧
    ∀ options : Options, options.validateUtf8 = true →
      (∀ length body : Octets, options.depth ≤ Options.depthLimit →
        Length.Accepts options.mode (.definite body.length) length →
        options.decode (0x0c :: (length ++ body)) =
          if Utf8.isWellFormed body then .ok (.text ⟨.utf8String, body, options.toTextOptions⟩)
          else .error .invalidFormat) ∧
      (∀ data found,
        ({ options with validateUtf8 := false } : Options).decode data = .ok found →
        ((∃ value, options.decode data = .ok value) ↔
          ∀ string, .text string ∈ found.nodes → string.tag = .utf8String →
            Utf8.isWellFormed string.body = true)) ∧
      (∀ data value string, options.decode data = .ok value → .text string ∈ value.nodes →
        string.tag = .utf8String →
        ∃ text, string.decode = .ok text ∧ Utf8.ofString text = string.body) := by
  refine ⟨fun octets => ⟨fun rounds => Text.answerWithin?_eq_some,
    Text.checksUtf8_eq_isWellFormed octets, Text.checksUtf8_iff⟩, fun options validates => ⟨?_,
    fun data found => exists_decode_iff_of_lax validates,
    fun data value string => exists_decode_of_utf8_mem_nodes validates⟩⟩
  intro length body within accepts
  have isText : Tag.utf8String ∈ Tag.textTypes := by decide
  have decoded := decode_text isText within accepts
  have valid : (Text.mk .utf8String body options.toTextOptions).isValid =
      Utf8.isWellFormed body := by
    rw [Text.isValid, if_pos rfl, validates, Text.checksUtf8_eq_isWellFormed]
    rfl
  rw [valid] at decoded
  exact decoded

/-- Characters of three octets, one of which lies across the end of a chunk: with all of its octets,
with the first one only, and as a lone octet that is found without validation. -/
theorem validation_across_chunks :
    Text.answerWithin? 2 (Utf8.encode (List.replicate 342 '緑')) = some true ∧
    Options.decode {} (0x0c :: (Length.encode 1024 ++
      (Utf8.encode (List.replicate 341 '緑') ++ [0xe7]))) = .error .invalidFormat ∧
    (∃ string, Options.decode {} (0x0c :: (Length.encode 1026 ++
        Utf8.encode (List.replicate 342 '緑'))) = .ok (.text string) ∧
      ∃ text, string.decode = .ok text ∧ Utf8.ofString text = string.body) ∧
    ¬ ∃ value, Options.decode {} [0x30, 0x03, 0x0c, 0x01, 0xe7] = .ok value := by
  obtain ⟨rounds, decoding⟩ := validation_accepts_well_formed
  obtain ⟨decodes, compared, stands⟩ := decoding {} rfl
  have whole : Utf8.isWellFormed (Utf8.encode (List.replicate 342 '緑')) = true := by
    rw [Utf8.isWellFormed, Utf8.read_encode]
    rfl
  have cut : Utf8.isWellFormed (Utf8.encode (List.replicate 341 '緑') ++ [0xe7]) = false := by
    rw [Utf8.isWellFormed, Utf8.read_encode_append]
    decide +kernel
  have accepts (count : Nat) (short : count < 2 ^ 64) :
      Length.Accepts .der (.definite count) (Length.encode count) :=
    .definite (Length.announces_encode short) fun _ => Length.shortest_encode short
  have lax : Options.decode { validateUtf8 := false } [0x30, 0x03, 0x0c, 0x01, 0xe7] =
      .ok (.constructed .sequence [0x0c, 0x01, 0xe7]
        [.text ⟨.utf8String, [0xe7], ⟨false, false⟩⟩]) := by decide +kernel
  have long : (Utf8.encode (List.replicate 342 '緑')).length = 1026 := by decide +kernel
  have short : (Utf8.encode (List.replicate 341 '緑') ++ [0xe7]).length = 1024 := by
    decide +kernel
  refine ⟨?_, ?_, ?_, ?_⟩
  · rw [(rounds _).1 2 (by rw [long]; decide), (rounds _).2.1, whole]
  · rw [decodes _ _ (by decide) (by rw [short]; exact accepts 1024 (by decide)), cut]
    rfl
  · have decoded := decodes (Length.encode 1026) (Utf8.encode (List.replicate 342 '緑'))
      (by decide) (by rw [long]; exact accepts 1026 (by decide))
    rw [whole] at decoded
    refine ⟨_, decoded, stands _ _ _ decoded ?_ rfl⟩
    rw [Value.nodes_of_leaf rfl]
    exact List.mem_singleton_self _
  · intro accepted
    have each := (compared _ _ lax).mp accepted ⟨.utf8String, [0xe7], ⟨false, false⟩⟩
      (by simp [Value.nodes]) rfl
    have truncated : Utf8.isWellFormed [0xe7] = false := by decide +kernel
    rw [truncated] at each
    cases each

end Parser

end Asn1
