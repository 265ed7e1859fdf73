import Asn1.Value
import Asn1.Proofs.Length
import Asn1.Proofs.Value.Elements
import Asn1.Proofs.Value.Primitive

/-!
# Encodings and the grammar of basic rules

An encoding is a value in which the octets that announce each length are kept, since basic rules
leave a choice there. `IsBer` is the grammar: which encodings may stand at a nesting level.
`IsCanonical` is what distinguished rules demand of one node beyond that.
-/

namespace Asn1

/-- An encoding taken apart: a primitive value, or elements within definite length octets, or
elements up to an end marker that has length octets of its own. -/
inductive Encoding where
  | primitive (length : Octets) (value : Value)
  | definite (tag : Tag) (length : Octets) (elements : List Encoding)
  | indefinite (tag : Tag) (elements : List Encoding) (ending : Octets)

namespace Encoding

/-- A property of all encodings follows from that of their elements. -/
@[elab_as_elim, induction_eliminator]
theorem induction {motive : Encoding → Prop}
    (primitive : ∀ length value, motive (.primitive length value))
    (definite : ∀ tag length elements, (∀ element ∈ elements, motive element) →
      motive (.definite tag length elements))
    (indefinite : ∀ tag elements ending, (∀ element ∈ elements, motive element) →
      motive (.indefinite tag elements ending))
    (encoding : Encoding) : motive encoding := by
  refine @Encoding.rec motive (fun elements => ∀ element ∈ elements, motive element)
    primitive definite indefinite ?_ ?_ encoding
  · intro element membership
    cases membership
  · intro head tail ofHead ofTail element membership
    rcases List.mem_cons.mp membership with rfl | membership
    · exact ofHead
    · exact ofTail element membership

def identifier : Encoding → Identifier
  | primitive _ value => ⟨value.tag, false⟩
  | definite tag _ _ => ⟨tag, true⟩
  | indefinite tag _ _ => ⟨tag, true⟩

def octets : Encoding → Octets
  | primitive length value => (Identifier.mk value.tag false).octet :: (length ++ value.body)
  | definite tag length elements =>
      (Identifier.mk tag true).octet :: (length ++ elements.flatMap octets)
  | indefinite tag elements ending =>
      (Identifier.mk tag true).octet :: 0x80 :: (elements.flatMap octets ++ 0x00 :: ending)

/-- The octets of the content, to which an end marker belongs. -/
def content : Encoding → Octets
  | primitive _ value => value.body
  | definite _ _ elements => elements.flatMap octets
  | indefinite _ elements ending => elements.flatMap octets ++ 0x00 :: ending

def value : Encoding → Value
  | primitive _ value => value
  | definite tag length elements =>
      .constructed tag (definite tag length elements).content (elements.map value)
  | indefinite tag elements ending =>
      .constructed tag (indefinite tag elements ending).content (elements.map value)

/-- The encoding and then everything nested in it, in order. -/
def nodes : Encoding → List Encoding
  | primitive length value => [primitive length value]
  | definite tag length elements => definite tag length elements :: elements.flatMap nodes
  | indefinite tag elements ending => indefinite tag elements ending :: elements.flatMap nodes

@[simp]
theorem octets_primitive (length : Octets) (value : Value) :
    (primitive length value).octets =
      (Identifier.mk value.tag false).octet :: (length ++ value.body) := by
  rw [octets]

@[simp]
theorem octets_definite (tag : Tag) (length : Octets) (elements : List Encoding) :
    (definite tag length elements).octets =
      (Identifier.mk tag true).octet :: (length ++ elements.flatMap octets) := by
  rw [octets]

@[simp]
theorem octets_indefinite (tag : Tag) (elements : List Encoding) (ending : Octets) :
    (indefinite tag elements ending).octets =
      (Identifier.mk tag true).octet :: 0x80 :: (elements.flatMap octets ++ 0x00 :: ending) := by
  rw [octets]

@[simp]
theorem value_primitive (length : Octets) (value : Value) :
    (primitive length value).value = value := by
  rw [Encoding.value]

@[simp]
theorem value_definite (tag : Tag) (length : Octets) (elements : List Encoding) :
    (definite tag length elements).value =
      .constructed tag (elements.flatMap octets) (elements.map value) := by
  rw [value, content]

@[simp]
theorem value_indefinite (tag : Tag) (elements : List Encoding) (ending : Octets) :
    (indefinite tag elements ending).value =
      .constructed tag (elements.flatMap octets ++ 0x00 :: ending) (elements.map value) := by
  rw [value, content]

theorem body_value (encoding : Encoding) : encoding.value.body = encoding.content := by
  cases encoding <;> simp [Value.body, content]

theorem map_body_map_value (elements : List Encoding) :
    (elements.map value).map Value.body = elements.map content := by
  simp [List.map_map, Function.comp_def, body_value]

/-- The grammar of basic rules: the encodings that may stand at a nesting level. An end marker is
one level deeper than the value it ends. -/
inductive IsBer (options : TextOptions) : Nat → Encoding → Prop
  | primitive {level length value} :
      level ≤ Options.depthLimit →
      Length.Announces length value.body.length →
      value.IsPrimitive .ber options →
      IsBer options level (.primitive length value)
  | definite {level tag length elements} :
      level ≤ Options.depthLimit →
      tag.MayBeConstructed →
      Length.Announces length (elements.flatMap octets).length →
      (∀ element ∈ elements, IsBer options (level + 1) element) →
      IsBer options level (.definite tag length elements)
  | indefinite {level tag elements ending} :
      level + 1 ≤ Options.depthLimit →
      tag.MayBeConstructed →
      (∀ element ∈ elements, IsBer options (level + 1) element) →
      Length.Announces ending 0 →
      IsBer options level (.indefinite tag elements ending)

/-- What distinguished rules demand of one node: a definite length in its shortest form, sequences
and sets as the only constructed values of the universal class, one form of each truth value and
time, and the elements of a set in ascending order of content. -/
def IsCanonical : Encoding → Prop
  | primitive length value =>
      Length.Shortest length value.body.length ∧ value.HasCanonicalContent
  | definite tag length elements =>
      Length.Shortest length (elements.flatMap octets).length ∧
        (tag.tagClass = .universal → tag = .sequence ∨ tag = .set) ∧
        (tag = .set → (elements.map content).Pairwise (· ≤ ·))
  | indefinite _ _ _ => False

/-- The encodings of a set of rules. -/
def Follows (mode : Mode) (options : TextOptions) (level : Nat) (encoding : Encoding) : Prop :=
  encoding.IsBer options level ∧ (mode = .der → ∀ node ∈ encoding.nodes, node.IsCanonical)

variable {mode : Mode} {options : TextOptions} {level : Nat}

theorem follows_ber_iff {encoding : Encoding} :
    encoding.Follows .ber options level ↔ encoding.IsBer options level := by
  simp [Follows]

theorem follows_primitive_iff {length : Octets} {value : Value} :
    (primitive length value).Follows mode options level ↔
      level ≤ Options.depthLimit ∧ Length.Announces length value.body.length ∧
        (mode = .der → Length.Shortest length value.body.length) ∧
        value.IsPrimitive mode options := by
  rw [Follows, nodes, Value.isPrimitive_iff]
  constructor
  · rintro ⟨ber, canonical⟩
    cases ber with
    | primitive within announces primitive =>
        have rules := fun der => canonical der _ (List.mem_singleton_self _)
        exact ⟨within, announces, fun der => (rules der).1, primitive, fun der => (rules der).2⟩
  · rintro ⟨within, announces, shortest, primitive, canonical⟩
    refine ⟨.primitive within announces primitive, fun der node membership => ?_⟩
    rw [List.mem_singleton.mp membership]
    exact ⟨shortest der, canonical der⟩

theorem follows_definite_iff {tag : Tag} {length : Octets} {elements : List Encoding} :
    (definite tag length elements).Follows mode options level ↔
      level ≤ Options.depthLimit ∧
        Length.Announces length (elements.flatMap octets).length ∧
        (mode = .der → Length.Shortest length (elements.flatMap octets).length) ∧
        Value.mayBeConstructed mode tag = true ∧
        (mode = .der → tag = .set → (elements.map content).Pairwise (· ≤ ·)) ∧
        ∀ element ∈ elements, element.Follows mode options (level + 1) := by
  rw [Follows, nodes, Value.mayBeConstructed_iff]
  constructor
  · rintro ⟨ber, canonical⟩
    cases ber with
    | definite within mayBeConstructed announces elementsBer =>
        have rules := fun der => canonical der _ List.mem_cons_self
        refine ⟨within, announces, fun der => (rules der).1,
          ⟨mayBeConstructed, fun der => (rules der).2.1⟩, fun der => (rules der).2.2, ?_⟩
        intro element membership
        refine ⟨elementsBer element membership, fun der node inside => canonical der node ?_⟩
        exact List.mem_cons_of_mem _ (List.mem_flatMap.mpr ⟨element, membership, inside⟩)
  · rintro ⟨within, announces, shortest, ⟨mayBeConstructed, restricted⟩, ordered, elementsFollow⟩
    refine ⟨.definite within mayBeConstructed announces
      fun element membership => (elementsFollow element membership).1, ?_⟩
    intro der node membership
    rcases List.mem_cons.mp membership with rfl | inside
    · exact ⟨shortest der, restricted der, ordered der⟩
    · obtain ⟨element, isElement, inElement⟩ := List.mem_flatMap.mp inside
      exact (elementsFollow element isElement).2 der node inElement

theorem follows_indefinite_iff {tag : Tag} {elements : List Encoding} {ending : Octets} :
    (indefinite tag elements ending).Follows mode options level ↔
      mode = .ber ∧ level + 1 ≤ Options.depthLimit ∧ Value.mayBeConstructed mode tag = true ∧
        Length.Announces ending 0 ∧
        ∀ element ∈ elements, element.Follows mode options (level + 1) := by
  cases mode with
  | der => simp [Follows, nodes, IsCanonical]
  | ber =>
      simp only [follows_ber_iff, Value.mayBeConstructed_ber_iff, true_and]
      constructor
      · intro ber
        cases ber with
        | indefinite within mayBeConstructed elementsBer announces =>
            exact ⟨within, mayBeConstructed, announces, elementsBer⟩
      · rintro ⟨within, mayBeConstructed, announces, elementsBer⟩
        exact .indefinite within mayBeConstructed elementsBer announces

end Encoding

end Asn1
