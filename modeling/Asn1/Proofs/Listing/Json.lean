import Asn1.Listing
import Asn1.Proofs.Json.Document
import Asn1.Proofs.Value.Tree

/-!
# Values in JSON

The document for a value is JSON and means the tree of the value, whatever the text in it is.
-/

namespace Asn1

namespace Json

theorem digits_decimal (number : Nat) : Digits (Decimal.digits number) :=
  ⟨Decimal.digits_ne_nil number, Decimal.forall_mem_digits (by decide) number⟩

/-- Only the number zero is written with a zero in front. -/
theorem wholeNumber_decimal (number : Nat) : WholeNumber (Decimal.digits number) := by
  refine ⟨digits_decimal number, ?_⟩
  fun_induction Decimal.digits number with
  | case1 number small =>
      intro isZero
      rw [Option.some.inj isZero]
  | case2 number large inductionHypothesis =>
      intro isZero
      rw [List.head?_append_of_ne_nil _ (Decimal.digits_ne_nil _)] at isZero
      have value := Decimal.value?_digits (number / 10)
      rw [inductionHypothesis isZero] at value
      have zero : 0 = number / 10 := Option.some.inj value
      omega

theorem isNumber_decimal (number : Nat) : IsNumber (Decimal.text number).toList := by
  refine ⟨[], Decimal.digits number, [], [], ?_, .inl rfl, wholeNumber_decimal number, .inl rfl,
    .inl rfl⟩
  simp [Decimal.text]

end Json

namespace Value

def commonData (value : Value) : List (String × Json.Data) :=
  [("type", .string value.description),
    ("class", .string value.tag.tagClass.name),
    ("tag", .number (Decimal.text value.tag.number.val)),
    ("constructed", .boolean value.isConstructed),
    ("length", .number (Decimal.text value.body.length))]

/-- A value with everything nested in it. The content of a primitive value is left out if there is
nothing to show, but not that of text. -/
def toJson : Value → Json.Data
  | constructed tag body elements =>
      .object (commonData (constructed tag body elements) ++
        [("elements", .array (elements.map toJson))])
  | value =>
      .object (commonData value ++
        if value.rendered ≠ "" ∨ value.tag ∈ Tag.textTypes then
          [("value", .string value.rendered)]
        else
          [])

open Json (Bare Entry Denotes)

theorem toJson_of_leaf {value : Value} (leaf : value.isConstructed = false) :
    value.toJson = .object (commonData value ++
      if value.rendered ≠ "" ∨ value.tag ∈ Tag.textTypes then [("value", .string value.rendered)]
      else []) := by
  cases value with
  | constructed => cases leaf
  | _ => rw [toJson]; nofun

theorem members_of_leaf {value : Value} (leaf : value.isConstructed = false) :
    value.members = commonMembers value ++ contentMember value := by
  cases value with
  | constructed => cases leaf
  | _ => rw [members]; nofun

theorem commonMembers_areMembers (value : Value) :
    List.Forall₂ Entry.IsMember value.commonMembers value.commonData := by
  have number (number : Nat) : Bare (Decimal.text number) (.number (Decimal.text number)) :=
    .number (Json.isNumber_decimal number)
  exact .cons .string (.cons .string (.cons (.bare (number _)) (.cons (.bare .boolean)
    (.cons (.bare (number _)) .nil))))

theorem objects_eq_map (values : List Value) :
    objects values = values.map fun value => .object value.members := by
  induction values with
  | nil => rfl
  | cons value rest inductionHypothesis =>
      rw [objects, inductionHypothesis]
      rfl

/-- The members of a value are meant to be those of its tree. -/
theorem isItem_members (value : Value) : (Entry.object value.members).IsItem value.toJson := by
  induction value using Value.induction with
  | leaf value leaf =>
      rw [members_of_leaf leaf, toJson_of_leaf leaf]
      apply Entry.IsItem.object
      apply List.rel_append value.commonMembers_areMembers
      simp only [contentMember, isText, Tag.isTextType, decide_eq_true_eq]
      split_ifs
      · exact .cons .string .nil
      · exact .nil
  | constructed tag body elements inductionHypothesis =>
      rw [members, toJson, objects_eq_map]
      apply Entry.IsItem.object
      apply List.rel_append (commonMembers_areMembers _)
      refine .cons (.array ?_) .nil
      rw [List.forall₂_map_left_iff, List.forall₂_map_right_iff, List.forall₂_same]
      exact inductionHypothesis

/-- The document of a value is one object of JSON, with a line end behind it, and what it means is
the tree of the value and nothing else. -/
theorem denotes_pieces_iff (value : Value) :
    ∃ text, String.join (value.pieces .json) = text ++ "\n" ∧
      value.toJson.Spelling text.toList ∧
      ∀ data, Denotes (String.join (value.pieces .json)) data ↔ data = value.toJson := by
  have written : String.join (value.pieces .json) = Json.document value.members ++ "\n" := by
    simp [pieces]
  have spelled := Json.spelling_document value.isItem_members
  refine ⟨_, written, spelled, ?_⟩
  rw [written]
  intro data
  have denotes := Json.denotes_of_spelling spelled "\n" Json.space_newline
  constructor
  · intro other
    exact other.unique denotes
  · rintro rfl
    exact denotes

end Value

end Asn1
