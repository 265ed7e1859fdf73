import Asn1.Program
import Asn1.Proofs.Decimal
import Asn1.Proofs.Hex
import Asn1.Proofs.ObjectId.Shortest

/-!
# Dotted notation

Which texts are read, and what they are shown as. Reading drops plus signs and needless zeros and
nothing else. What is shown of a valid identifier is read again, and what is shown of an invalid one
is not.
-/

namespace Asn1.ObjectId

inductive IsItem : List Char → Nat → Prop where
  | unsigned {chars : List Char} {number : Nat} :
      Decimal.IsNumeral chars number → IsItem chars number
  | signed {chars : List Char} {number : Nat} :
      Decimal.IsNumeral chars number → IsItem ('+' :: chars) number

/-- The text has the items between its dots. They write the components, which have 32 bits each and
can be encoded. -/
structure IsNotation (text : String) (items : List (List Char)) (components : List UInt32) :
    Prop where
  joined : text.toList = ['.'].intercalate items
  each : List.Forall₂ (fun item component => IsItem item component.toNat) items components
  encodable : Encodable components

/-- The text is the shortest numerals of the components with dots between them. -/
def IsNormal (text : String) (components : List UInt32) : Prop :=
  ∃ items, text.toList = ['.'].intercalate items ∧
    List.Forall₂ (fun item component => Decimal.IsShortest item component.toNat) items components

theorem writes_iff {item : List Char} {component : UInt32} :
    Writes item component ↔ IsItem item component.toNat := by
  constructor
  · rintro ⟨digits, rfl | rfl, read⟩
    · exact .unsigned (Decimal.value?_eq_some_iff.mp read)
    · exact .signed (Decimal.value?_eq_some_iff.mp read)
  · rintro (numeral | numeral)
    · exact ⟨_, .inl rfl, Decimal.value?_eq_some_iff.mpr numeral⟩
    · exact ⟨_, .inr rfl, Decimal.value?_eq_some_iff.mpr numeral⟩

theorem head?_ne_plus {chars : List Char} {number : Nat}
    (numeral : Decimal.IsNumeral chars number) : chars.head? ≠ some '+' := by
  intro isPlus
  have isDigit := numeral.2.1 '+' (List.mem_of_mem_head? isPlus)
  exact absurd isDigit (by decide)

/-- An item is the shortest numeral of its number unless it has a sign or a needless zero. -/
theorem IsItem.digits_eq_iff {item : List Char} {number : Nat} (isItem : IsItem item number) :
    Decimal.digits number = item ↔ item.head? ≠ some '+' ∧ ¬ Decimal.HasLeadingZero item := by
  cases isItem with
  | unsigned numeral =>
      rw [numeral.length_le_and_digits_eq_iff.2, and_iff_right (head?_ne_plus numeral)]
  | signed numeral =>
      constructor
      · intro same
        exact absurd (congrArg List.head? same) (head?_ne_plus (Decimal.isNumeral_digits number))
      · rintro ⟨unsigned, -⟩
        exact absurd rfl unsigned

theorem map_digits_eq_iff {items : List (List Char)} {components : List UInt32}
    (each : List.Forall₂ (fun item component => IsItem item component.toNat) items components) :
    components.map (fun component => Decimal.digits component.toNat) = items ↔
      ∀ item ∈ items, item.head? ≠ some '+' ∧ ¬ Decimal.HasLeadingZero item := by
  induction each with
  | nil => simp
  | cons isItem _ inductionHypothesis =>
      rw [List.map_cons, List.cons.injEq, List.forall_mem_cons, isItem.digits_eq_iff,
        inductionHypothesis]

theorem IsNotation.dotted {text : String} {items : List (List Char)} {components : List UInt32}
    (isNotation : IsNotation text items components) : Dotted text components :=
  ⟨items, isNotation.joined, isNotation.each.imp fun _ _ => writes_iff.mpr⟩

theorem exists_isNotation_iff {text : String} {components : List UInt32} :
    (∃ items, IsNotation text items components) ↔
      Dotted text components ∧ Encodable components := by
  constructor
  · rintro ⟨items, isNotation⟩
    exact ⟨isNotation.dotted, isNotation.encodable⟩
  · rintro ⟨⟨items, joined, each⟩, encodable⟩
    exact ⟨items, joined, each.imp fun _ _ => writes_iff.mp, encodable⟩

/-- Reading a text is encoding the components that it has. -/
theorem ofDotted?_eq_some_iff {text : String} {id : ObjectId} :
    ofDotted? text = some id ↔
      ∃ items components, IsNotation text items components ∧
        ofComponents? components = some id := by
  simp only [ofDotted?, Option.bind_eq_bind, Option.bind_eq_some_iff]
  constructor
  · rintro ⟨components, read, encoded⟩
    have encodable := isSome_ofComponents?_iff.mp (Option.isSome_of_eq_some encoded)
    have dotted := (mapM_splitAtDots_eq_some_iff encodable.ne_nil).mp read
    obtain ⟨items, isNotation⟩ := exists_isNotation_iff.mpr ⟨dotted, encodable⟩
    exact ⟨items, components, isNotation, encoded⟩
  · rintro ⟨items, components, isNotation, encoded⟩
    have read := (mapM_splitAtDots_eq_some_iff isNotation.encodable.ne_nil).mpr isNotation.dotted
    exact ⟨components, read, encoded⟩

theorem IsNotation.exists_ofDotted? {text : String} {items : List (List Char)}
    {components : List UInt32} (isNotation : IsNotation text items components) :
    ∃ id, ofDotted? text = some id ∧ id.components? = some components := by
  obtain ⟨id, encoded⟩ :=
    Option.isSome_iff_exists.mp (isSome_ofComponents?_iff.mpr isNotation.encodable)
  exact ⟨id, ofDotted?_eq_some_iff.mpr ⟨items, components, isNotation, encoded⟩,
    components?_of_ofComponents? encoded⟩

theorem isSome_ofDotted?_iff_isNotation {text : String} :
    (ofDotted? text).isSome = true ↔
      ∃ items components, IsNotation text items components := by
  rw [isSome_ofDotted?_iff]
  simp only [← exists_isNotation_iff]
  exact exists_comm

/-- The items of a text are what stands between its dots. -/
theorem IsNotation.splitOn_eq {text : String} {items : List (List Char)}
    {components : List UInt32} (isNotation : IsNotation text items components) :
    text.toList.splitOn '.' = items := by
  have nonempty : items ≠ [] := by
    rintro rfl
    have each := isNotation.each
    cases each
    exact isNotation.encodable.ne_nil rfl
  have noDot : ∀ item ∈ items, '.' ∉ item :=
    not_mem_dot_of_writes (isNotation.each.imp fun _ _ => writes_iff.mpr)
  rw [isNotation.joined, List.splitOn_intercalate '.' noDot nonempty]

theorem forall₂_isShortest_iff {items : List (List Char)} {components : List UInt32} :
    List.Forall₂ (fun item component => Decimal.IsShortest item component.toNat) items components ↔
      items = components.map fun component => Decimal.digits component.toNat := by
  simp only [Decimal.isShortest_iff]
  rw [← List.forall₂_map_right_iff (R := Eq), List.forall₂_eq_eq_eq]

theorem isNormal_iff {text : String} {components : List UInt32} :
    IsNormal text components ↔
      text.toList = ['.'].intercalate
        (components.map fun component => Decimal.digits component.toNat) := by
  simp only [IsNormal, forall₂_isShortest_iff, exists_eq_right]

theorem isNormal_dotted {id : ObjectId} {components : List UInt32}
    (read : id.components? = some components) : IsNormal id.dotted components := by
  have each : String.toList ∘ (fun component => Decimal.text component.toNat) =
      fun component : UInt32 => Decimal.digits component.toNat :=
    funext fun component => String.toList_ofList
  rw [isNormal_iff, dotted, read]
  dsimp only
  rw [String.toList_intercalate, List.map_map, each]
  rfl

theorem IsNormal.unique {text other : String} {components : List UInt32}
    (normal : IsNormal text components) (normal' : IsNormal other components) : text = other :=
  String.toList_inj.mp ((isNormal_iff.mp normal).trans (isNormal_iff.mp normal').symm)

theorem IsNormal.isNotation {text : String} {components : List UInt32}
    (normal : IsNormal text components) (encodable : Encodable components) :
    IsNotation text (components.map fun component => Decimal.digits component.toNat)
      components := by
  refine ⟨isNormal_iff.mp normal, ?_, encodable⟩
  rw [List.forall₂_map_left_iff, List.forall₂_same]
  exact fun component _ => .unsigned (Decimal.isNumeral_digits component.toNat)

/-- A text is the shortest notation of its components unless it has a sign or a needless zero. -/
theorem IsNormal.eq_iff {shown text : String} {items : List (List Char)}
    {components : List UInt32} (normal : IsNormal shown components)
    (isNotation : IsNotation text items components) :
    shown = text ↔ ∀ item ∈ items, item.head? ≠ some '+' ∧ ¬ Decimal.HasLeadingZero item := by
  have isNotation' := normal.isNotation isNotation.encodable
  rw [← map_digits_eq_iff isNotation.each]
  constructor
  · rintro rfl
    exact isNotation'.splitOn_eq.symm.trans isNotation.splitOn_eq
  · intro same
    rw [← String.toList_inj, isNotation'.joined, isNotation.joined, same]

theorem encodable_of_components? {id : ObjectId} {components : List UInt32}
    (read : id.components? = some components) : Encodable components := by
  obtain ⟨head, groups, further, -, -, rfl⟩ := components?_eq_some_iff.mp read
  exact isSome_ofComponents?_iff.mp
    (Option.isSome_of_eq_some (ofComponents?_of_encodes head further))

/-- What is shown of a valid identifier is read with the same components and shown the same. -/
theorem exists_ofDotted?_dotted {id : ObjectId} {components : List UInt32}
    (read : id.components? = some components) :
    ∃ other, ofDotted? id.dotted = some other ∧ other.components? = some components ∧
      other.dotted = id.dotted := by
  have normal := isNormal_dotted read
  obtain ⟨other, found, same⟩ :=
    (normal.isNotation (encodable_of_components? read)).exists_ofDotted?
  exact ⟨other, found, same, (isNormal_dotted same).unique normal⟩

theorem ofDotted?_dotted_of_invalid {id : ObjectId} (invalid : id.components? = none) :
    ofDotted? id.dotted = none := by
  rw [dotted, invalid]
  decide

theorem decodeId_of_spells {digits : String} {octets : Octets} {components : List UInt32}
    (spells : Hex.Spells (Utf8.ofString digits) octets)
    (read : components? ⟨octets⟩ = some components) :
    decodeId digits = .done (dotted ⟨octets⟩ ++ "\n") := by
  have valid : isValid ⟨octets⟩ = true := Option.isSome_of_eq_some read
  rw [decodeId, Hex.decode_eq_ok_iff.mpr spells]
  exact if_pos valid

theorem exists_of_decodeId {digits : String} (succeeds : (decodeId digits).status = .success) :
    ∃ id components, components? id = some components ∧
      decodeId digits = .done (id.dotted ++ "\n") := by
  unfold decodeId at succeeds ⊢
  split at succeeds
  next => cases succeeds
  next octets _ =>
    by_cases valid : isValid ⟨octets⟩ = true
    · obtain ⟨components, read⟩ := Option.isSome_iff_exists.mp valid
      exact ⟨⟨octets⟩, components, read, if_pos valid⟩
    · rw [if_neg valid] at succeeds
      cases succeeds

theorem encodeId_of_read {text : String} {id : ObjectId} (read : ofDotted? text = some id) :
    encodeId text = .done (Hex.encode id.octets ++ "\n") := by
  rw [encodeId, read]

theorem exists_of_encodeId {text : String} (succeeds : (encodeId text).status = .success) :
    ∃ id, ofDotted? text = some id := by
  unfold encodeId at succeeds
  split at succeeds
  next id read => exact ⟨id, read⟩
  next => cases succeeds

/-- A text is read exactly if it is items between dots that write encodable components. It is shown
as the shortest such text, which is another one exactly if an item has a sign or a needless zero.
What is shown of octets is read with the same components and shown the same if they are valid, and
is not read otherwise. So the digits that are shown for a text are decoded to its shortest form, and
every text that digits are decoded to is encoded. -/
theorem ofDotted?_inverse_dotted :
    (∀ text : String, (ofDotted? text).isSome = true ↔
      ∃ items components, IsNotation text items components) ∧
    (∀ (text : String) (items : List (List Char)) (components : List UInt32) (id : ObjectId),
      IsNotation text items components → ofDotted? text = some id →
        id.components? = some components ∧ IsNormal id.dotted components ∧
          (id.dotted = text ↔
            ∀ item ∈ items, item.head? ≠ some '+' ∧ ¬ Decimal.HasLeadingZero item)) ∧
    (∀ (id : ObjectId) (components : List UInt32), id.components? = some components →
      ∃ other, ofDotted? id.dotted = some other ∧ other.components? = some components ∧
        other.dotted = id.dotted) ∧
    (∀ id : ObjectId, id.components? = none → ofDotted? id.dotted = none) ∧
    (∀ text : String, (encodeId text).status = .success →
      ∃ items components digits normal, IsNotation text items components ∧
        encodeId text = .done (digits ++ "\n") ∧ decodeId digits = .done (normal ++ "\n") ∧
        IsNormal normal components) ∧
    ∀ digits : String, (decodeId digits).status = .success →
      ∃ text, decodeId digits = .done (text ++ "\n") ∧ (encodeId text).status = .success := by
  refine ⟨fun _ => isSome_ofDotted?_iff_isNotation, ?_, fun _ _ => exists_ofDotted?_dotted,
    fun _ => ofDotted?_dotted_of_invalid, ?_, ?_⟩
  · intro text items components id isNotation read
    obtain ⟨other, found, same⟩ := isNotation.exists_ofDotted?
    cases read.symm.trans found
    have normal := isNormal_dotted same
    exact ⟨same, normal, normal.eq_iff isNotation⟩
  · intro text succeeds
    obtain ⟨id, read⟩ := exists_of_encodeId succeeds
    obtain ⟨items, components, isNotation, encoded⟩ := ofDotted?_eq_some_iff.mp read
    have same := components?_of_ofComponents? encoded
    exact ⟨items, components, _, _, isNotation, encodeId_of_read read,
      decodeId_of_spells (Hex.spells_encode id.octets) same, isNormal_dotted same⟩
  · intro digits succeeds
    obtain ⟨id, components, read, decoded⟩ := exists_of_decodeId succeeds
    obtain ⟨other, found, -⟩ := exists_ofDotted?_dotted read
    exact ⟨id.dotted, decoded, congrArg Outcome.status (encodeId_of_read found)⟩

/-- A sign, needless zeros and a padded group are dropped on the way. -/
theorem ofDotted?_signed_padded :
    (∃ id, ofDotted? "+01.02.3" = some id ∧ id.components? = some [1, 2, 3] ∧
      id.dotted ≠ "+01.02.3") ∧
    (∃ id, ofDotted? (dotted ⟨[0x2a, 0x80, 0x03]⟩) = some id ∧
      id.components? = some [1, 2, 3]) ∧
    ofDotted? (dotted ⟨[0x2a, 0x80]⟩) = none ∧
    (∃ digits normal, encodeId "+01.02.3" = .done (digits ++ "\n") ∧
      decodeId digits = .done (normal ++ "\n")) ∧
    ∃ text, decodeId "2a8003" = .done (text ++ "\n") ∧ (encodeId text).status = .success := by
  obtain ⟨isSome, ofRead, ofValid, ofInvalid, ofEncoded, ofDecoded⟩ := ofDotted?_inverse_dotted
  have isNotation : IsNotation "+01.02.3" [['+', '0', '1'], ['0', '2'], ['3']] [1, 2, 3] := by
    refine ⟨rfl, .cons (.signed ?_) (.cons (.unsigned ?_) (.cons (.unsigned ?_) .nil)), ?_⟩
    · exact Decimal.value?_eq_some_iff.mp rfl
    · exact Decimal.value?_eq_some_iff.mp rfl
    · exact Decimal.value?_eq_some_iff.mp rfl
    · exact ⟨by decide, by decide⟩
  refine ⟨?_, ?_, ofInvalid _ rfl, ?_, ofDecoded _ rfl⟩
  · obtain ⟨id, read⟩ := Option.isSome_iff_exists.mp ((isSome _).mpr ⟨_, _, isNotation⟩)
    obtain ⟨same, -, eq_iff⟩ := ofRead _ _ _ id isNotation read
    refine ⟨id, read, same, fun unchanged => ?_⟩
    exact (eq_iff.mp unchanged _ List.mem_cons_self).1 rfl
  · obtain ⟨id, read, same, -⟩ := ofValid ⟨[0x2a, 0x80, 0x03]⟩ [1, 2, 3] rfl
    exact ⟨id, read, same⟩
  · obtain ⟨-, -, digits, normal, -, encoded, decoded, -⟩ := ofEncoded "+01.02.3" rfl
    exact ⟨digits, normal, encoded, decoded⟩

end Asn1.ObjectId
