import Asn1.Value.Scan
import Mathlib.Data.List.Chain

/-!
# Constructed values

Which tags they have and how their elements are ordered.
-/

namespace Asn1

/-- Tags of values that basic rules allow to be constructed: sequences and sets, the universal types
that may be cut into segments, and all tags of other classes. -/
def Tag.MayBeConstructed (tag : Tag) : Prop :=
  tag.tagClass ≠ .universal ∨
    tag ∈ [Tag.sequence, Tag.set, Tag.bitString, Tag.octetString] ++ Tag.textTypes

namespace Value

theorem isConstructedType_iff {tag : Tag} :
    tag.isConstructedType = true ↔ tag = .sequence ∨ tag = .set := by
  simp [Tag.isConstructedType]

theorem canBeConstructed_iff {tag : Tag} :
    tag.canBeConstructed = true ↔
      tag ∈ [Tag.sequence, Tag.set, Tag.bitString, Tag.octetString] ++ Tag.textTypes := by
  simp only [Tag.canBeConstructed, Tag.isTextType, Bool.or_eq_true, isConstructedType_iff,
    decide_eq_true_eq, List.mem_append, List.mem_cons, List.not_mem_nil]
  grind

theorem mayBeConstructed_ber_iff {tag : Tag} :
    mayBeConstructed .ber tag = true ↔ tag.MayBeConstructed := by
  rw [Tag.MayBeConstructed, ← canBeConstructed_iff]
  simp only [mayBeConstructed, Tag.isUniversal, Tag.canBeConstructed]
  grind

theorem mayBeConstructed_der_iff {tag : Tag} :
    mayBeConstructed .der tag = true ↔
      (tag.tagClass = .universal → tag = .sequence ∨ tag = .set) := by
  simp only [mayBeConstructed, Tag.isUniversal, ← isConstructedType_iff]
  grind

theorem mayBeConstructed_iff {mode : Mode} {tag : Tag} :
    mayBeConstructed mode tag = true ↔
      tag.MayBeConstructed ∧
        (mode = .der → tag.tagClass = .universal → tag = .sequence ∨ tag = .set) := by
  cases mode with
  | ber => simp [mayBeConstructed_ber_iff]
  | der =>
      rw [mayBeConstructed_der_iff]
      constructor
      · intro restricted
        refine ⟨?_, fun _ => restricted⟩
        by_cases universal : tag.tagClass = .universal
        · rcases restricted universal with rfl | rfl <;> right <;> decide
        · exact .inl universal
      · exact fun both => both.2 rfl

theorem ne_endOfContent_of_mayBeConstructed {mode : Mode} {tag : Tag}
    (mayBeConstructed : mayBeConstructed mode tag = true) : tag ≠ .endOfContent := by
  rintro rfl
  cases mode <;> cases mayBeConstructed

theorem isAscending_iff_isChain (contents : List Octets) :
    isAscending contents = true ↔ contents.IsChain (· ≤ ·) := by
  fun_induction isAscending contents with
  | case1 first second rest inductionHypothesis =>
      rw [Bool.and_eq_true, inductionHypothesis, List.isChain_cons_cons]
      simp
  | case2 contents short =>
      match contents with
      | [] | [_] => simp
      | first :: second :: rest => exact (short first second rest rfl).elim

/-- Comparing neighbours suffices for any two contents to be in order. -/
theorem isAscending_iff_pairwise (contents : List Octets) :
    isAscending contents = true ↔ contents.Pairwise (· ≤ ·) := by
  rw [isAscending_iff_isChain, List.isChain_iff_pairwise]

theorem ofElements?_eq_some_iff {mode : Mode} {tag : Tag} {body : Octets} {elements : List Value}
    {value : Value} :
    ofElements? mode tag body elements = some value ↔
      (mode = .der → tag = .set → (elements.map Value.body).Pairwise (· ≤ ·)) ∧
        .constructed tag body elements = value := by
  rw [ofElements?, Option.ite_none_left_eq_some, Option.some.injEq, ← isAscending_iff_pairwise]
  simp

end Value

end Asn1
