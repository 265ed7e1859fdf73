import Asn1.Proofs.Encoding.Unambiguous

/-!
# The content of constructed values

Content is a series of elements, with an end marker behind them if the length is indefinite. The
content alone tells what the elements are and whether there is a marker, at whatever level it is
read.
-/

namespace Asn1

namespace Encoding

variable {options : TextOptions} {level otherLevel : Nat}

def elements : Encoding → List Encoding
  | primitive _ _ => []
  | definite _ _ elements => elements
  | indefinite _ elements _ => elements

/-- A property of all encodings follows from that of their elements, whatever their form is. -/
@[elab_as_elim]
theorem elementsInduction {motive : Encoding → Prop}
    (step : ∀ encoding : Encoding, (∀ element ∈ encoding.elements, motive element) →
      motive encoding)
    (encoding : Encoding) : motive encoding := by
  induction encoding with
  | primitive length value => exact step _ nofun
  | definite tag length elements inductionHypothesis => exact step _ inductionHypothesis
  | indefinite tag elements ending inductionHypothesis => exact step _ inductionHypothesis

def endMarker : Encoding → Octets
  | indefinite _ _ ending => 0x00 :: ending
  | _ => []

def isIndefinite : Encoding → Bool
  | indefinite _ _ _ => true
  | _ => false

def header : Encoding → Octets
  | primitive length value => [(Identifier.mk value.tag false).octet] ++ length
  | definite tag length _ => [(Identifier.mk tag true).octet] ++ length
  | indefinite tag _ _ => [(Identifier.mk tag true).octet, 0x80]

theorem octets_eq_header_append_content (encoding : Encoding) :
    encoding.octets = encoding.header ++ encoding.content := by
  cases encoding <;> simp [header, content]

theorem nodes_eq (encoding : Encoding) :
    encoding.nodes = encoding :: encoding.elements.flatMap nodes := by
  cases encoding with
  | primitive => rw [nodes]; rfl
  | definite => rw [nodes]; rfl
  | indefinite => rw [nodes]; rfl

theorem tag_value (encoding : Encoding) : encoding.value.tag = encoding.identifier.tag := by
  cases encoding <;> simp [identifier, Value.tag]

theorem content_of_constructed {encoding : Encoding}
    (constructed : encoding.identifier.constructed = true) :
    encoding.content = encoding.elements.flatMap octets ++ encoding.endMarker := by
  cases encoding with
  | primitive => cases constructed
  | definite => simp [content, elements, endMarker]
  | indefinite => simp [content, elements, endMarker]

theorem elements_of_primitive {encoding : Encoding}
    (primitive : encoding.identifier.constructed = false) : encoding.elements = [] := by
  cases encoding with
  | primitive => rfl
  | definite => cases primitive
  | indefinite => cases primitive

theorem value_of_constructed {encoding : Encoding}
    (constructed : encoding.identifier.constructed = true) :
    encoding.value =
      .constructed encoding.identifier.tag encoding.content (encoding.elements.map value) := by
  cases encoding with
  | primitive => cases constructed
  | definite => rw [value]; rfl
  | indefinite => rw [value]; rfl

theorem IsBer.isConstructed_value {encoding : Encoding} (ber : encoding.IsBer options level) :
    encoding.value.isConstructed = encoding.identifier.constructed := by
  cases ber with
  | primitive _ _ isPrimitive =>
      rw [value_primitive]
      exact Value.IsPrimitive.isConstructed_eq_false isPrimitive
  | definite => simp [Value.isConstructed, identifier]
  | indefinite => simp [Value.isConstructed, identifier]

theorem IsBer.mono {encoding : Encoding} (ber : encoding.IsBer options level)
    (outwards : otherLevel ≤ level) : encoding.IsBer options otherLevel := by
  induction encoding generalizing level otherLevel with
  | primitive length value =>
      cases ber with
      | primitive within announces isPrimitive =>
          exact .primitive (outwards.trans within) announces isPrimitive
  | definite tag length elements inductionHypothesis =>
      cases ber with
      | definite within allowed announces elementsBer =>
          apply IsBer.definite (outwards.trans within) allowed announces
          intro element membership
          exact inductionHypothesis element membership (elementsBer element membership) (by omega)
  | indefinite tag elements ending inductionHypothesis =>
      cases ber with
      | indefinite within allowed elementsBer announces =>
          apply IsBer.indefinite (by omega) allowed ?_ announces
          intro element membership
          exact inductionHypothesis element membership (elementsBer element membership) (by omega)

theorem IsBer.of_mem_elements {encoding element : Encoding} (ber : encoding.IsBer options level)
    (membership : element ∈ encoding.elements) : element.IsBer options (level + 1) := by
  cases ber with
  | primitive => cases membership
  | definite _ _ _ elementsBer => exact elementsBer element membership
  | indefinite _ _ elementsBer _ => exact elementsBer element membership

theorem Follows.of_mem_elements {mode : Mode} {encoding element : Encoding}
    (follows : encoding.Follows mode options level) (membership : element ∈ encoding.elements) :
    element.Follows mode options (level + 1) := by
  refine ⟨follows.1.of_mem_elements membership, fun der node inside => follows.2 der node ?_⟩
  rw [nodes_eq]
  exact List.mem_cons_of_mem _ (List.mem_flatMap.mpr ⟨element, membership, inside⟩)

theorem startsNone_endMarker_of (encoding : Encoding) :
    StartsNone options level encoding.endMarker := by
  cases encoding with
  | primitive => exact startsNone_nil
  | definite => exact startsNone_nil
  | indefinite tag elements ending => exact startsNone_endMarker ending

/-- Equal contents have equal elements and equal end markers. -/
theorem IsBer.elements_eq_of_content_eq {left right : Encoding}
    (ber : left.IsBer options level) (otherBer : right.IsBer options otherLevel)
    (constructed : left.identifier.constructed = true)
    (otherConstructed : right.identifier.constructed = true)
    (same : left.content = right.content) :
    left.elements = right.elements ∧ left.endMarker = right.endMarker := by
  -- Both series are compared at the outer one of the two levels.
  have elementsBer : ∀ element ∈ left.elements, element.IsBer options (min level otherLevel) :=
    fun element membership => (ber.of_mem_elements membership).mono (by omega)
  have otherElementsBer :
      ∀ element ∈ right.elements, element.IsBer options (min level otherLevel) :=
    fun element membership => (otherBer.of_mem_elements membership).mono (by omega)
  rw [content_of_constructed constructed, content_of_constructed otherConstructed] at same
  exact determined_series (fun element membership => (elementsBer element membership).isDetermined)
    elementsBer otherElementsBer (startsNone_endMarker_of left) (startsNone_endMarker_of right) same

theorem isIndefinite_iff_endMarker_ne_nil {encoding : Encoding} :
    encoding.isIndefinite = true ↔ encoding.endMarker ≠ [] := by
  cases encoding <;> simp [isIndefinite, endMarker]

/-- Values are equal if and only if their identifiers and their contents are. -/
theorem IsBer.value_eq_iff {left right : Encoding} (ber : left.IsBer options level)
    (otherBer : right.IsBer options otherLevel) :
    left.value = right.value ↔
      left.value.tag = right.value.tag ∧
        left.value.isConstructed = right.value.isConstructed ∧
        left.value.body = right.value.body := by
  constructor
  · intro same
    rw [same]
    exact ⟨rfl, rfl, rfl⟩
  · rintro ⟨sameTag, sameForm, sameBody⟩
    rw [ber.isConstructed_value, otherBer.isConstructed_value] at sameForm
    cases constructed : left.identifier.constructed with
    | true =>
        rw [constructed] at sameForm
        rw [body_value, body_value] at sameBody
        rw [tag_value, tag_value] at sameTag
        have series := ber.elements_eq_of_content_eq otherBer constructed sameForm.symm sameBody
        rw [value_of_constructed constructed, value_of_constructed sameForm.symm, sameTag, sameBody,
          series.1]
    | false =>
        rw [constructed] at sameForm
        cases ber with
        | primitive _ _ isPrimitive =>
            cases otherBer with
            | primitive _ _ otherPrimitive =>
                simp only [value_primitive] at sameTag sameBody ⊢
                exact Value.IsPrimitive.unique isPrimitive otherPrimitive sameTag sameBody
            | definite => cases sameForm
            | indefinite => cases sameForm
        | definite => cases constructed
        | indefinite => cases constructed

end Encoding

end Asn1
