import Asn1.Proofs.Encoding.Reading

/-!
# Encodings can be taken apart in one way only

Octets that start with an encoding at a level determine the whole encoding, with all its length
octets. The decoder determines the value and where the encoding ends; what is left are the lengths.
-/

namespace Asn1

namespace Encoding

variable {options : TextOptions} {level : Nat}

def StartsNone (options : TextOptions) (level : Nat) (tail : Octets) : Prop :=
  ∀ (encoding : Encoding) (rest : Octets), encoding.IsBer options level →
    tail ≠ encoding.octets ++ rest

/-- An encoding is determined by the octets it starts. -/
def IsDetermined (options : TextOptions) (level : Nat) (encoding : Encoding) : Prop :=
  ∀ (other : Encoding) (rest otherRest : Octets),
    other.IsBer options level → encoding.octets ++ rest = other.octets ++ otherRest →
      encoding = other ∧ rest = otherRest

theorem startsNone_nil : StartsNone options level [] := by
  intro encoding rest _ same
  exact encoding.octets_ne_nil (List.append_eq_nil_iff.mp same.symm).1

theorem IsBer.tag_ne_endOfContent {encoding : Encoding} (ber : encoding.IsBer options level) :
    encoding.identifier.tag ≠ .endOfContent := by
  cases ber with
  | primitive within announces isPrimitive => exact isPrimitive.tag_ne_endOfContent
  | definite within allowed announces elementsBer =>
      exact Value.ne_endOfContent_of_mayBeConstructed (Value.mayBeConstructed_ber_iff.mpr allowed)
  | indefinite within allowed elementsBer announces =>
      exact Value.ne_endOfContent_of_mayBeConstructed (Value.mayBeConstructed_ber_iff.mpr allowed)

theorem head?_octets (encoding : Encoding) :
    encoding.octets.head? = some encoding.identifier.octet := by
  cases encoding <;> simp [identifier]

theorem startsNone_endMarker (tail : Octets) : StartsNone options level (0x00 :: tail) := by
  intro encoding rest ber same
  have first : (0x00 : UInt8) = encoding.identifier.octet := by
    have heads := congrArg List.head? same
    rw [List.head?_append, head?_octets] at heads
    exact Option.some.inj heads
  have isEnd : (⟨.endOfContent, false⟩ : Identifier) = encoding.identifier :=
    Identifier.octet_injective first
  exact ber.tag_ne_endOfContent (by rw [← isEnd])

theorem determined_series {elements others : List Encoding} {tail otherTail : Octets}
    (determined : ∀ element ∈ elements, IsDetermined options level element)
    (ber : ∀ element ∈ elements, element.IsBer options level)
    (otherBer : ∀ other ∈ others, other.IsBer options level)
    (ends : StartsNone options level tail) (otherEnds : StartsNone options level otherTail)
    (same : elements.flatMap octets ++ tail = others.flatMap octets ++ otherTail) :
    elements = others ∧ tail = otherTail := by
  induction elements generalizing others with
  | nil =>
      cases others with
      | nil => exact ⟨rfl, same⟩
      | cons other others =>
          rw [List.forall_mem_cons] at otherBer
          rw [List.flatMap_cons, List.append_assoc] at same
          exact absurd same (ends other _ otherBer.1)
  | cons element elements inductionHypothesis =>
      rw [List.forall_mem_cons] at determined ber
      rw [List.flatMap_cons, List.append_assoc] at same
      cases others with
      | nil => exact absurd same.symm (otherEnds element _ ber.1)
      | cons other others =>
          rw [List.forall_mem_cons] at otherBer
          rw [List.flatMap_cons, List.append_assoc] at same
          obtain ⟨rfl, laterSame⟩ := determined.1 other _ _ otherBer.1 same
          obtain ⟨rfl, rfl⟩ := inductionHypothesis determined.2 ber.2 otherBer.2 laterSame
          exact ⟨rfl, rfl⟩

theorem identifier_eq_of_octets_eq {encoding other : Encoding} {rest otherRest : Octets}
    (same : encoding.octets ++ rest = other.octets ++ otherRest) :
    encoding.identifier = other.identifier := by
  have heads := congrArg List.head? same
  rw [List.head?_append, List.head?_append, head?_octets, head?_octets] at heads
  exact Identifier.octet_injective (Option.some.inj heads)

theorem constructed_eq_of_octets_eq {encoding other : Encoding} {rest otherRest : Octets}
    (same : encoding.octets ++ rest = other.octets ++ otherRest) :
    encoding.identifier.constructed = other.identifier.constructed :=
  congrArg Identifier.constructed (identifier_eq_of_octets_eq same)

theorem isDetermined_primitive {length : Octets} {value : Value}
    (ber : (primitive length value).IsBer options level) :
    IsDetermined options level (primitive length value) := by
  intro other rest otherRest otherBer same
  cases ber with
  | primitive _ announces isPrimitive =>
  cases otherBer with
  | primitive _ otherAnnounces otherPrimitive =>
      have sameTag := congrArg Identifier.tag (identifier_eq_of_octets_eq same)
      simp only [octets_primitive, List.cons_append, List.append_assoc, List.cons.injEq] at same
      obtain ⟨rfl, sameCount, sameContent⟩ := announces.unique otherAnnounces same.2
      obtain ⟨sameBody, rfl⟩ := List.append_inj sameContent sameCount
      rw [isPrimitive.unique otherPrimitive sameTag sameBody]
      exact ⟨rfl, rfl⟩
  | definite => cases constructed_eq_of_octets_eq same
  | indefinite => cases constructed_eq_of_octets_eq same

theorem isDetermined_definite {tag : Tag} {length : Octets} {elements : List Encoding}
    (ber : (definite tag length elements).IsBer options level)
    (determined : ∀ element ∈ elements, IsDetermined options (level + 1) element) :
    IsDetermined options level (definite tag length elements) := by
  intro other rest otherRest otherBer same
  cases ber with
  | definite _ _ announces elementsBer =>
  cases otherBer with
  | primitive => cases constructed_eq_of_octets_eq same
  | @definite _ _ _ others _ _ otherAnnounces othersBer =>
      cases congrArg Identifier.tag (identifier_eq_of_octets_eq same)
      simp only [octets_definite, List.cons_append, List.append_assoc, List.cons.injEq] at same
      obtain ⟨rfl, sameCount, sameContent⟩ := announces.unique otherAnnounces same.2
      obtain ⟨sameElements, rfl⟩ := List.append_inj sameContent sameCount
      have sameSeries : elements.flatMap octets ++ [] = others.flatMap octets ++ [] := by
        rw [sameElements]
      rcases determined_series determined elementsBer othersBer startsNone_nil startsNone_nil
        sameSeries with ⟨rfl, -⟩
      exact ⟨rfl, rfl⟩
  | indefinite =>
      simp only [octets_definite, octets_indefinite, List.cons_append, List.append_assoc,
        List.cons.injEq] at same
      exact absurd same.2 announces.ne_indefinite

theorem isDetermined_indefinite {tag : Tag} {elements : List Encoding} {ending : Octets}
    (ber : (indefinite tag elements ending).IsBer options level)
    (determined : ∀ element ∈ elements, IsDetermined options (level + 1) element) :
    IsDetermined options level (indefinite tag elements ending) := by
  intro other rest otherRest otherBer same
  cases ber with
  | indefinite _ _ elementsBer announces =>
  cases otherBer with
  | primitive => cases constructed_eq_of_octets_eq same
  | definite _ _ otherAnnounces =>
      simp only [octets_definite, octets_indefinite, List.cons_append, List.append_assoc,
        List.cons.injEq] at same
      exact absurd same.2.symm otherAnnounces.ne_indefinite
  | indefinite _ _ othersBer otherAnnounces =>
      cases congrArg Identifier.tag (identifier_eq_of_octets_eq same)
      simp only [octets_indefinite, List.cons_append, List.append_assoc, List.cons.injEq,
        true_and] at same
      rcases determined_series determined elementsBer othersBer (startsNone_endMarker _)
        (startsNone_endMarker _) same with ⟨rfl, sameTail⟩
      rw [List.cons.injEq] at sameTail
      obtain ⟨rfl, -, rfl⟩ := announces.unique otherAnnounces sameTail.2
      exact ⟨rfl, rfl⟩

/-- Octets that start with an encoding determine it. -/
theorem IsBer.isDetermined {encoding : Encoding} (ber : encoding.IsBer options level) :
    IsDetermined options level encoding := by
  induction encoding generalizing level with
  | primitive length value => exact isDetermined_primitive ber
  | definite tag length elements inductionHypothesis =>
      apply isDetermined_definite ber
      intro element membership
      cases ber with
      | definite _ _ _ elementsBer =>
          exact inductionHypothesis element membership (elementsBer element membership)
  | indefinite tag elements ending inductionHypothesis =>
      apply isDetermined_indefinite ber
      intro element membership
      cases ber with
      | indefinite _ _ elementsBer _ =>
          exact inductionHypothesis element membership (elementsBer element membership)

theorem IsBer.eq_of_octets_eq {encoding other : Encoding} (ber : encoding.IsBer options level)
    (otherBer : other.IsBer options level) (same : encoding.octets = other.octets) :
    encoding = other :=
  (ber.isDetermined other [] [] otherBer (by rw [same])).1

end Encoding

end Asn1
