import Asn1.Proofs.Comparison
import Asn1.Proofs.Encoding.Content
import Asn1.Proofs.Parser
import Asn1.Proofs.Text
import Asn1.Proofs.Value.Tree

/-!
# What the choices other than the encoding rules decide

The choices of how to interpret text have no influence but on which text is valid and on what is
noted with each text. So decoding with any choices is decoding with the most permissive ones, unless
some text does not meet what the choices demand.
-/

namespace Asn1

open Scan (Limited limited_of_ok limited_of_error)

namespace Value

/-- The same value with other choices noted with all text. -/
def withTextOptions (options : TextOptions) : Value → Value
  | constructed tag body elements =>
      constructed tag body (elements.map fun element => element.withTextOptions options)
  | text string => text { string with options }
  | value => value

/-- A primitive value of a text type meets what the choices demand of its octets. -/
def MeetsTextOptions (options : TextOptions) (value : Value) : Prop :=
  value.isConstructed = false → Text.Meets options value.tag value.body

/-- The value and everything nested in it meets what the choices demand of text. -/
def AllMeet (options : TextOptions) (value : Value) : Prop :=
  ∀ node ∈ value.nodes, node.MeetsTextOptions options

section Options

variable {mode : Mode} {options others : TextOptions} {tag : Tag} {body : Octets} {value : Value}
  {elements : List Value}

@[simp]
theorem withTextOptions_constructed :
    (constructed tag body elements).withTextOptions options =
      constructed tag body (elements.map (withTextOptions options)) := by
  rw [withTextOptions]

@[simp]
theorem withTextOptions_text {string : Text} :
    (text string).withTextOptions options = text { string with options } := by
  rw [withTextOptions]

@[simp]
theorem body_withTextOptions : (value.withTextOptions options).body = value.body := by
  cases value <;> simp [withTextOptions, Value.body]

theorem ofElements?_withTextOptions :
    ofElements? mode tag body (elements.map (withTextOptions options)) =
      (ofElements? mode tag body elements).map (withTextOptions options) := by
  have sameBodies : (elements.map (withTextOptions options)).map Value.body =
      elements.map Value.body := by simp
  unfold ofElements?
  rw [sameBodies]
  split
  · rfl
  · rw [Option.map_some, withTextOptions_constructed]

theorem ofContent?_of_mem_textTypes (isText : tag ∈ Tag.textTypes) :
    ofContent? mode options tag body =
      if (Text.mk tag body options).isValid then some (.text ⟨tag, body, options⟩) else none := by
  have universal := isUniversal_of_mem_textTypes tag isText
  have notConstructed := isConstructedType_of_mem_textTypes tag isText
  have otherKinds := ne_of_mem_textTypes tag isText
  simp [ofContent?, universal, notConstructed, otherKinds, Tag.isTextType, isText]

theorem meets_of_not_mem_textTypes (notText : tag ∉ Tag.textTypes) :
    Text.Meets options tag body := by
  constructor
  · rintro - rfl
    exact absurd (by decide) notText
  · rintro - rfl
    exact absurd (by decide) notText

theorem ofContent?_of_not_mem_textTypes (notText : tag ∉ Tag.textTypes) :
    ofContent? mode others tag body = ofContent? mode options tag body := by
  simp only [ofContent?, Tag.isTextType, notText, decide_false, Bool.false_eq_true, if_false]

theorem withTextOptions_of_not_mem_textTypes (primitive : value.IsPrimitive mode options)
    (notText : value.tag ∉ Tag.textTypes) : value.withTextOptions others = value := by
  cases value with
  | text string => exact absurd primitive.1 notText
  | constructed => exact primitive.elim
  | _ =>
      rw [withTextOptions]
      all_goals nofun

/-- A primitive value that is read with some choices is also read with others, with those noted, if
it meets them. -/
theorem limited_ofContent? (notEnd : tag ≠ .endOfContent)
    (found : ofContent? mode options tag body = some value) (rest : Octets) :
    Limited (value.MeetsTextOptions others) (Scan.accept (ofContent? mode others tag body)) rest
      (value.withTextOptions others) rest := by
  by_cases isText : tag ∈ Tag.textTypes
  · rw [ofContent?_of_mem_textTypes isText, Option.ite_none_right_eq_some] at found
    obtain ⟨valid, same⟩ := found
    cases same
    rw [ofContent?_of_mem_textTypes isText, withTextOptions_text]
    have meets_iff : (text ⟨tag, body, options⟩).MeetsTextOptions others ↔
        (Text.mk tag body others).isValid = true :=
      (imp_iff_right rfl).trans (Text.isValid_iff_meets valid).symm
    by_cases accepted : (Text.mk tag body others).isValid = true
    · rw [if_pos accepted]
      exact limited_of_ok (meets_iff.mpr accepted) rfl
    · rw [if_neg accepted]
      exact limited_of_error (fun meets => accepted (meets_iff.mp meets)) rfl
  · obtain ⟨primitive, rfl, rfl⟩ := isPrimitive_of_ofContent? notEnd found
    rw [ofContent?_of_not_mem_textTypes isText, found,
      withTextOptions_of_not_mem_textTypes primitive isText]
    exact limited_of_ok (fun _ => meets_of_not_mem_textTypes isText) rfl

theorem allMeet_of_leaf (leaf : value.isConstructed = false) :
    value.AllMeet options ↔ value.MeetsTextOptions options := by
  rw [AllMeet, nodes_of_leaf leaf, List.forall_mem_singleton]

theorem allMeet_constructed :
    (constructed tag body elements).AllMeet options ↔
      ∀ element ∈ elements, element.AllMeet options := by
  rw [AllMeet, forall_mem_nodes_constructed_iff]
  apply and_iff_right
  nofun

/-- What an item has to meet. An end marker has no text. -/
def ItemMeets (options : TextOptions) (found : Option Value) : Prop :=
  found.elim True (AllMeet options)

variable {item other : ItemScan (Option Value)}

theorem limited_content
    (compares : Compares (ItemMeets others) (withTextOptions others) item.run other.run)
    {identifier : Identifier} {length : Length} {all rest : Octets}
    (notEnd : identifier.tag ≠ .endOfContent)
    (found : content mode options item identifier length all = .ok value rest) :
    Limited (value.AllMeet others) (content mode others other identifier length) all
      (value.withTextOptions others) rest := by
  obtain ⟨tag, isConstructed⟩ := identifier
  cases length with
  | definite count =>
      cases isConstructed with
      | false =>
          obtain ⟨body, rfl, rfl, accepted⟩ := Encoding.content_primitive_eq_ok_iff.mp found
          rw [content, allMeet_of_leaf (isConstructed_eq_false_of_ofContent? notEnd accepted)]
          apply Limited.after (Scan.octets_append body rest)
          exact limited_ofContent? notEnd accepted rest
      | true =>
          rcases Encoding.content_definite_eq_ok_iff.mp found with
            ⟨body, rfl, rfl, allowed, values, elementsFound, accepted⟩
          obtain ⟨-, rfl⟩ := ofElements?_eq_some_iff.mp accepted
          rw [content, allMeet_constructed]
          apply Limited.after (Scan.octets_append body rest)
          rw [if_pos rfl, if_pos allowed]
          by_cases each : ∀ value ∈ values, value.AllMeet others
          · apply limited_of_ok each
            rw [compares.elements?_of_allowed elementsFound each, Option.bind_some,
              ofElements?_withTextOptions, accepted]
            rfl
          · apply limited_of_error each
            rw [compares.elements?_of_not_allowed elementsFound each]
            rfl
  | indefinite =>
      rcases Encoding.content_indefinite_eq_ok_iff.mp found with
        ⟨rfl, allowed, values, elementsFound, accepted⟩
      obtain ⟨-, rfl⟩ := ofElements?_eq_some_iff.mp accepted
      rw [content, if_pos ⟨rfl, allowed⟩, allMeet_constructed]
      refine Limited.congr
        (Limited.bind_ok (compares.limited_untilEnd elementsFound).spanned ?_)
        (and_iff_right trivial)
      rw [Scan.accept_eq_ok_iff, ofElements?_withTextOptions, accepted]
      exact ⟨rfl, rfl⟩

theorem compares_valueOrEnd
    (compares : Compares (ItemMeets others) (withTextOptions others) item.run other.run) :
    Compares (ItemMeets others) (withTextOptions others) (valueOrEnd mode options item)
      (valueOrEnd mode others other) := by
  intro all found rest scanned
  cases found with
  | none =>
      have ended := Encoding.valueOrEnd_eq_end_iff.mp scanned
      exact limited_of_ok trivial (Encoding.valueOrEnd_eq_end_iff.mpr ended)
  | some value =>
      rcases Encoding.valueOrEnd_eq_value_iff.mp scanned with
        ⟨identifier, after, length, between, rfl, lengthFound, notEnd, contentFound⟩
      rw [valueOrEnd]
      apply Limited.after (Identifier.scan_eq_ok_iff.mpr rfl)
      apply Limited.after lengthFound
      rw [if_neg notEnd]
      exact (limited_content compares notEnd contentFound).map some

theorem compares_itemScan (mode : Mode) (options others : TextOptions) (levels : Nat) :
    Compares (ItemMeets others) (withTextOptions others) (itemScan mode options levels).run
      (itemScan mode others levels).run := by
  induction levels with
  | zero =>
      intro all found rest scanned
      exact absurd scanned Encoding.tooDeep_ne_ok
  | succ levels inductionHypothesis => exact compares_valueOrEnd inductionHypothesis

end Options

end Value

/-- The same encoding rules and nesting level, with no demands on text. -/
def Options.permissive (options : Options) : Options :=
  { options with validateUtf8 := false, teletexAsLatin1 := true }

namespace Parser

section Choices

variable {options others : Options} {data : Octets} {value : Value}

theorem decode_eq_ok_iff_scan :
    options.decode data = .ok value ↔ Value.scan options data = .ok value [] := by
  rw [decode_eq_ok_iff, Encoding.scan_eq_ok_iff]
  simp only [List.append_nil, eq_comm (a := data), and_comm (a := Encoding.octets _ = data)]

/-- Data that is decoded with some choices is decoded with others, with those noted in the value, if
all text meets them. Otherwise the format is found broken. -/
theorem limited_scan (decoded : options.decode data = .ok value)
    (sameMode : options.mode = others.mode) (sameDepth : options.depth = others.depth) :
    Limited (value.AllMeet others.toTextOptions) (Value.scan others) data
      (value.withTextOptions others.toTextOptions) [] := by
  rw [decode_eq_ok_iff_scan, Value.scan, Scan.bind_eq_ok_iff] at decoded
  obtain ⟨found, between, scanned, accepted⟩ := decoded
  obtain ⟨rfl, rfl⟩ := Scan.accept_eq_ok_iff.mp accepted
  rw [Value.scan, ← sameMode, Options.levels, ← sameDepth]
  apply Limited.bind_ok (Value.compares_itemScan _ _ others.toTextOptions _ _ _ _ scanned)
  rfl

theorem decode_of_allMeet (decoded : options.decode data = .ok value)
    (sameMode : options.mode = others.mode) (sameDepth : options.depth = others.depth)
    (meet : value.AllMeet others.toTextOptions) :
    others.decode data = .ok (value.withTextOptions others.toTextOptions) :=
  decode_eq_ok_iff_scan.mpr ((limited_scan decoded sameMode sameDepth).1 meet)

theorem decode_of_not_allMeet (decoded : options.decode data = .ok value)
    (sameMode : options.mode = others.mode) (sameDepth : options.depth = others.depth)
    (unmet : ¬ value.AllMeet others.toTextOptions) :
    others.decode data = .error .invalidFormat := by
  obtain ⟨left, failed⟩ := (limited_scan decoded sameMode sameDepth).2 unmet
  exact decode_of_error failed

theorem decode_of_le_depth {depth : Nat} (outwards : depth ≤ options.depth)
    (decoded : options.decode data = .ok value) :
    ({ options with depth } : Options).decode data = .ok value := by
  obtain ⟨encoding, ⟨ber, canonical⟩, covers, rfl⟩ := decode_eq_ok_iff.mp decoded
  exact decode_eq_ok_iff.mpr ⟨encoding, ⟨ber.mono outwards, canonical⟩, covers, rfl⟩

theorem allMeet_permissive (value : Value) :
    value.AllMeet options.permissive.toTextOptions := by
  intro node _ _
  constructor
  · nofun
  · nofun

end Choices

/-- Choices other than the encoding rules only relax. Data is decoded with some choices if and only
if it is decoded with no demands on text and all text nodes meet the demands; the value is then the
same but for the choices noted in it. If they do not meet them, the format is found broken. What is
decoded at some nesting level is also decoded at every level above. -/
theorem decode_eq_ok_iff_permissive (options : Options) (data : Octets) :
    (∀ value, options.decode data = .ok value ↔
      ∃ found, options.permissive.decode data = .ok found ∧
        (∀ node ∈ found.nodes, node.MeetsTextOptions options.toTextOptions) ∧
        value = found.withTextOptions options.toTextOptions) ∧
    (∀ found, options.permissive.decode data = .ok found →
      ¬ (∀ node ∈ found.nodes, node.MeetsTextOptions options.toTextOptions) →
        options.decode data = .error .invalidFormat) ∧
    (∀ depth ≤ options.depth, ∀ value, options.decode data = .ok value →
      ({ options with depth } : Options).decode data = .ok value) := by
  have unmet : ∀ found, options.permissive.decode data = .ok found →
      ¬ found.AllMeet options.toTextOptions → options.decode data = .error .invalidFormat :=
    fun found decoded => decode_of_not_allMeet decoded rfl rfl
  refine ⟨fun value => ⟨?_, ?_⟩, unmet, fun depth outwards value => decode_of_le_depth outwards⟩
  · intro decoded
    have relaxed : options.permissive.decode data = .ok _ :=
      decode_of_allMeet decoded rfl rfl (allMeet_permissive value)
    have meet : (value.withTextOptions options.permissive.toTextOptions).AllMeet
        options.toTextOptions := by
      by_contra refused
      have failed := unmet _ relaxed refused
      rw [decoded] at failed
      cases failed
    have again : options.decode data = .ok _ := decode_of_allMeet relaxed rfl rfl meet
    rw [decoded] at again
    exact ⟨_, relaxed, meet, Except.ok.inj again⟩
  · rintro ⟨found, decoded, meet, rfl⟩
    exact decode_of_allMeet decoded rfl rfl meet

/-- A sequence of a UTF-8 string that is not well-formed, which passes with no demands only, and of
one that is, three levels deep and at the top. -/
theorem decode_utf8_strings :
    (∃ found, Options.decode (Options.permissive {}) [0x30, 0x03, 0x0c, 0x01, 0xff] = .ok found ∧
      Options.decode {} [0x30, 0x03, 0x0c, 0x01, 0xff] = .error .invalidFormat) ∧
    ∃ value found, Options.decode { depth := 3 } [0x30, 0x03, 0x0c, 0x01, 0x61] = .ok value ∧
      Options.decode (Options.permissive { depth := 3 }) [0x30, 0x03, 0x0c, 0x01, 0x61] =
        .ok found ∧
      (∀ node ∈ found.nodes, node.MeetsTextOptions {}) ∧ value = found.withTextOptions {} ∧
      Options.decode {} [0x30, 0x03, 0x0c, 0x01, 0x61] = .ok value := by
  have passed : Options.decode (Options.permissive {}) [0x30, 0x03, 0x0c, 0x01, 0xff] =
      .ok (.constructed .sequence [0x0c, 0x01, 0xff]
        [.text ⟨.utf8String, [0xff], ⟨false, true⟩⟩]) := by decide +kernel
  have deep : Options.decode { depth := 3 } [0x30, 0x03, 0x0c, 0x01, 0x61] =
      .ok (.constructed .sequence [0x0c, 0x01, 0x61] [.text ⟨.utf8String, [0x61], {}⟩]) := by
    decide +kernel
  constructor
  · refine ⟨_, passed, (decode_eq_ok_iff_permissive {} _).2.1 _ passed ?_⟩
    intro meet
    have written := (meet (.text ⟨.utf8String, [0xff], ⟨false, true⟩⟩)
      (by simp [Value.nodes]) rfl).1 rfl rfl
    have notText : Utf8.isWellFormed [0xff] = false := by decide +kernel
    rw [Value.body, ← Utf8.isWellFormed_iff, notText] at written
    cases written
  · obtain ⟨found, relaxed, meet, same⟩ :=
      ((decode_eq_ok_iff_permissive { depth := 3 } _).1 _).mp deep
    have atTop := (decode_eq_ok_iff_permissive { depth := 3 } _).2.2 0 (by decide) _ deep
    exact ⟨_, found, deep, relaxed, meet, same, atTop⟩

end Parser

end Asn1
