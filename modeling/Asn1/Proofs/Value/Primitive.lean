import Asn1.Value.Scan
import Asn1.Proofs.UtcTime

/-!
# Primitive values

`IsPrimitive` lists the rules for the content of primitive values, kind by kind. Reading content
octets yields the one primitive value with that tag and content, if there is one.
-/

namespace Asn1.Value

/-- The tags that only values of a kind of their own have, or no primitive values at all. -/
def ruledTags : List Tag :=
  [.endOfContent, .boolean, .objectId, .utcTime, .sequence, .set] ++ Tag.textTypes

/-- The primitive values. Only a null among those that are not interpreted has a rule. -/
def IsPrimitive (mode : Mode) (options : TextOptions) : Value → Prop
  | generic tag body => tag ∉ ruledTags ∧ (tag = .null → body = [])
  | constructed _ _ _ => False
  | boolean octet => mode = .der → octet = 0 ∨ octet = 0xff
  | objectId id => id.isValid
  | text string => string.tag ∈ Tag.textTypes ∧ string.options = options ∧ string.isValid
  | utcTime body time => UtcTime.ofOctets? mode body = some time

/-- What distinguished rules demand of a primitive value beyond basic rules. -/
def HasCanonicalContent : Value → Prop
  | boolean octet => octet = 0 ∨ octet = 0xff
  | utcTime body time => time.second?.isSome ∧ body.getLast? = some 0x5a
  | _ => True

theorem isPrimitive_der_iff {options : TextOptions} {value : Value} :
    value.IsPrimitive .der options ↔
      value.IsPrimitive .ber options ∧ value.HasCanonicalContent := by
  cases value with
  | utcTime body time => exact UtcTime.ofOctets?_der_iff
  | _ => simp [IsPrimitive, HasCanonicalContent]

theorem isPrimitive_iff {mode : Mode} {options : TextOptions} {value : Value} :
    value.IsPrimitive mode options ↔
      value.IsPrimitive .ber options ∧ (mode = .der → value.HasCanonicalContent) := by
  cases mode with
  | ber => simp
  | der => simp [isPrimitive_der_iff]

theorem mem_ruledTags_iff {tag : Tag} :
    tag ∈ ruledTags ↔
      tag = .endOfContent ∨ tag = .boolean ∨ tag = .objectId ∨ tag = .utcTime ∨
        tag.isConstructedType = true ∨ tag.isTextType = true := by
  simp [ruledTags, Tag.isConstructedType, Tag.isTextType, or_assoc]

theorem isUniversal_of_mem_ruledTags : ∀ tag ∈ ruledTags, tag.isUniversal = true := by
  decide

theorem isUniversal_of_mem_textTypes : ∀ tag ∈ Tag.textTypes, tag.isUniversal = true := by
  decide

theorem isConstructedType_of_mem_textTypes :
    ∀ tag ∈ Tag.textTypes, tag.isConstructedType = false := by
  decide

theorem ne_of_mem_textTypes : ∀ tag ∈ Tag.textTypes,
    tag ≠ .boolean ∧ tag ≠ .objectId ∧ tag ≠ .utcTime ∧ tag ≠ .null := by
  decide

theorem isPrimitive_of_ofContent? {mode : Mode} {options : TextOptions} {tag : Tag}
    {body : Octets} {value : Value} (notEnd : tag ≠ .endOfContent)
    (found : ofContent? mode options tag body = some value) :
    value.IsPrimitive mode options ∧ value.tag = tag ∧ value.body = body := by
  simp only [ofContent?] at found
  split at found
  · next otherClass =>
      cases found
      have unruled : tag ∉ ruledTags := by
        intro membership
        rw [isUniversal_of_mem_ruledTags tag membership] at otherClass
        cases otherClass
      have notNull : tag ≠ .null := by
        rintro rfl
        cases otherClass
      exact ⟨⟨unruled, fun isNull => absurd isNull notNull⟩, rfl, rfl⟩
  split at found
  · cases found
  split at found
  · next isBoolean =>
      split at found
      · next octet =>
          rw [Option.ite_none_left_eq_some] at found
          obtain ⟨accepted, same⟩ := found
          cases same
          refine ⟨fun der => ?_, isBoolean.symm, rfl⟩
          simpa [der, Decidable.or_iff_not_imp_left] using accepted
      · cases found
  split at found
  · next isObjectId =>
      rw [Option.ite_none_right_eq_some] at found
      obtain ⟨valid, same⟩ := found
      cases same
      exact ⟨valid, isObjectId.symm, rfl⟩
  split at found
  · next isTime =>
      rw [Option.map_eq_some_iff] at found
      obtain ⟨time, read, rfl⟩ := found
      exact ⟨read, isTime.symm, rfl⟩
  split at found
  · next isNull =>
      rw [Option.ite_none_right_eq_some] at found
      obtain ⟨empty, same⟩ := found
      cases same
      exact ⟨⟨by rw [isNull]; decide, fun _ => empty⟩, rfl, rfl⟩
  split at found
  · next isText =>
      rw [Option.ite_none_right_eq_some] at found
      obtain ⟨valid, same⟩ := found
      cases same
      exact ⟨⟨by simpa [Tag.isTextType] using isText, rfl, valid⟩, rfl, rfl⟩
  · next notConstructed notBoolean notObjectId notTime notNull notText =>
      cases found
      refine ⟨⟨?_, fun isNull => absurd isNull notNull⟩, rfl, rfl⟩
      rw [mem_ruledTags_iff]
      rintro (h | h | h | h | h | h)
      all_goals contradiction

theorem ofContent?_of_isPrimitive {mode : Mode} {options : TextOptions} {value : Value}
    (primitive : value.IsPrimitive mode options) :
    ofContent? mode options value.tag value.body = some value := by
  cases value with
  | generic tag body =>
      obtain ⟨unruled, ruleOfNull⟩ := primitive
      rw [mem_ruledTags_iff] at unruled
      simp only [not_or] at unruled
      by_cases isNull : tag = .null
      · subst isNull
        rw [ruleOfNull rfl]
        rfl
      · simp [ofContent?, Value.tag, Value.body, unruled, isNull]
  | constructed tag body elements => exact primitive.elim
  | boolean octet =>
      have accepted : ¬ (mode = .der ∧ octet ≠ 0 ∧ octet ≠ 0xff) := by
        rintro ⟨der, notFalse, notTrue⟩
        rcases primitive der with isFalse | isTrue
        · exact notFalse isFalse
        · exact notTrue isTrue
      exact if_neg accepted
  | objectId id => exact if_pos primitive
  | text string =>
      obtain ⟨tag, body, options⟩ := string
      obtain ⟨isText, rfl, valid⟩ := primitive
      have universal := isUniversal_of_mem_textTypes tag isText
      have notConstructed := isConstructedType_of_mem_textTypes tag isText
      have others := ne_of_mem_textTypes tag isText
      simp [ofContent?, Value.tag, Value.body, universal, notConstructed, others, Tag.isTextType,
        isText, valid]
  | utcTime body time =>
      have read : UtcTime.ofOctets? mode body = some time := primitive
      change (UtcTime.ofOctets? mode body).map (Value.utcTime body) = _
      rw [read]
      rfl

/-- Content octets are read as the primitive value with that tag and content. -/
theorem ofContent?_eq_some_iff {mode : Mode} {options : TextOptions} {tag : Tag} {body : Octets}
    {value : Value} (notEnd : tag ≠ .endOfContent) :
    ofContent? mode options tag body = some value ↔
      value.IsPrimitive mode options ∧ value.tag = tag ∧ value.body = body := by
  constructor
  · exact isPrimitive_of_ofContent? notEnd
  · rintro ⟨primitive, rfl, rfl⟩
    exact ofContent?_of_isPrimitive primitive

theorem IsPrimitive.unique {mode : Mode} {options : TextOptions} {left right : Value}
    (primitive : left.IsPrimitive mode options) (primitive' : right.IsPrimitive mode options)
    (sameTag : left.tag = right.tag) (sameBody : left.body = right.body) : left = right := by
  have leftRead := ofContent?_of_isPrimitive primitive
  rw [sameTag, sameBody, ofContent?_of_isPrimitive primitive'] at leftRead
  exact (Option.some.inj leftRead).symm

theorem IsPrimitive.isConstructed_eq_false {mode : Mode} {options : TextOptions} {value : Value}
    (primitive : value.IsPrimitive mode options) : value.isConstructed = false := by
  cases value with
  | constructed => exact primitive.elim
  | _ => rfl

theorem isConstructed_eq_false_of_ofContent? {mode : Mode} {options : TextOptions} {tag : Tag}
    {body : Octets} {value : Value} (notEnd : tag ≠ .endOfContent)
    (found : ofContent? mode options tag body = some value) : value.isConstructed = false :=
  (isPrimitive_of_ofContent? notEnd found).1.isConstructed_eq_false

theorem IsPrimitive.tag_ne_endOfContent {mode : Mode} {options : TextOptions} {value : Value}
    (primitive : value.IsPrimitive mode options) : value.tag ≠ .endOfContent := by
  cases value with
  | generic tag body =>
      rintro rfl
      exact primitive.1 (by decide)
  | constructed tag body elements => exact primitive.elim
  | text string =>
      intro isEnd
      have isText := primitive.1
      rw [show string.tag = .endOfContent from isEnd] at isText
      exact absurd isText (by decide)
  | boolean octet => exact (by decide : Tag.boolean ≠ .endOfContent)
  | objectId id => exact (by decide : Tag.objectId ≠ .endOfContent)
  | utcTime body time => exact (by decide : Tag.utcTime ≠ .endOfContent)

end Asn1.Value
