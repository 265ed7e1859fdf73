import Asn1.Proofs.Parser.Shortage
import Asn1.Proofs.Value.Tree
import Mathlib.Data.List.Perm.Basic

/-!
# The order of a set

Encodings that are values on their own make a value when they are put together. Only in a set, and
only under distinguished rules, does their order matter: no content may be greater than one behind
it. So there is an order for any elements, and if there are several, they differ by elements of the
same content.
-/

namespace Asn1

/-- Whether the content of a value is not greater than that of another one. -/
def Value.bodyLe (first second : Value) : Bool := first.body ≤ second.body

theorem Value.bodyLe_iff {first second : Value} :
    first.bodyLe second = true ↔ first.body ≤ second.body :=
  decide_eq_true_iff

/-- Elements can be put in the order of their contents. -/
theorem Value.exists_perm_pairwise (elements : List Value) :
    ∃ sorted : List Value, sorted.Perm elements ∧ (sorted.map body).Pairwise (· ≤ ·) := by
  have sorted : (elements.mergeSort bodyLe).Pairwise fun first second => first.bodyLe second := by
    apply List.pairwise_mergeSort
    · intro first second third before behind
      rw [bodyLe_iff] at before behind ⊢
      exact List.le_trans before behind
    · intro first second
      rw [Bool.or_eq_true, bodyLe_iff, bodyLe_iff]
      exact List.le_total first.body second.body
  exact ⟨elements.mergeSort bodyLe, List.mergeSort_perm _ _,
    List.pairwise_map.mpr (sorted.imp bodyLe_iff.mp)⟩

namespace Parser

variable {options : TextOptions} {depth : Nat} {parts : List Octets} {elements : List Value}

/-- The octets are an encoding of a value under distinguished rules. -/
def IsElement (options : TextOptions) (depth : Nat) (part : Octets) (element : Value) : Prop :=
  Options.decode { toTextOptions := options, mode := .der, depth } part = .ok element

/-- What distinguished rules accept has been encoded under all rules. -/
theorem exists_encodings (each : List.Forall₂ (IsElement options depth) parts elements) :
    ∃ encodings : List Encoding, parts.flatten = encodings.flatMap Encoding.octets ∧
      encodings.map Encoding.value = elements ∧
      ∀ mode, ∀ encoding ∈ encodings, encoding.Follows mode options depth := by
  induction each with
  | nil => exact ⟨[], rfl, rfl, fun _ => nofun⟩
  | cons isElement _ inductionHypothesis =>
      obtain ⟨encodings, split, rfl, follow⟩ := inductionHypothesis
      obtain ⟨encoding, follows, rfl, rfl⟩ := decode_eq_ok_iff.mp isElement
      refine ⟨encoding :: encodings, ?_, rfl, fun mode => ?_⟩
      · rw [List.flatten_cons, split, List.flatMap_cons]
      · exact List.forall_mem_cons.mpr ⟨⟨follows.1, fun _ => follows.2 rfl⟩, follow mode⟩

/-- Elements are read from their encodings put together. -/
theorem elements?_flatten (options : Options)
    (each : List.Forall₂ (IsElement options.toTextOptions options.deeper.depth) parts elements) :
    Value.elements? (Value.itemScan options.mode options.toTextOptions options.deeper.levels)
      parts.flatten = some elements := by
  obtain ⟨encodings, split, values, follow⟩ := exists_encodings each
  have reads := Encoding.reads_itemScan options.mode options.toTextOptions options.deeper.depth
  rw [← Options.levels] at reads
  exact reads.elements?_eq_some_iff.mpr ⟨encodings, follow options.mode, values, split⟩

theorem scan_framed (options : Options) {tag : Tag} (within : options.depth ≤ Options.depthLimit)
    (allowed : Value.mayBeConstructed options.mode tag = true)
    (short : parts.flatten.length < 2 ^ 64)
    (each : List.Forall₂ (IsElement options.toTextOptions options.deeper.depth) parts elements) :
    Value.scan options (Value.framed ⟨tag, true⟩ parts.flatten) =
      Scan.accept (Value.ofElements? options.mode tag parts.flatten elements) [] := by
  have notEnd := Value.ne_endOfContent_of_mayBeConstructed allowed
  have accepts : Length.Accepts options.mode (.definite parts.flatten.length)
      (Length.encode parts.flatten.length) :=
    .definite (Length.announces_encode short) fun _ => Length.shortest_encode short
  have taken := Scan.octets_append parts.flatten []
  rw [List.append_nil] at taken
  rw [Value.framed, Value.scan_cons within notEnd, Scan.bind_apply,
    Length.scan_eq_ok_iff.mpr ⟨_, accepts, rfl⟩]
  dsimp only
  rw [Value.content, Scan.bind_apply, taken]
  dsimp only
  rw [if_pos rfl, if_pos allowed, elements?_flatten options each, Option.bind_some]

/-- If each element can be read, only their order can be wrong. -/
theorem decode_framed {mode : Mode} {tag : Tag} (within : depth ≤ Options.depthLimit)
    (allowed : Value.mayBeConstructed mode tag = true) (short : parts.flatten.length < 2 ^ 64)
    (each : List.Forall₂ (IsElement options (depth + 1)) parts elements) :
    Options.decode { toTextOptions := options, mode, depth }
        (Value.framed ⟨tag, true⟩ parts.flatten) =
      if mode = .der ∧ tag = .set ∧ Value.isAscending (elements.map Value.body) = false then
        .error .invalidFormat
      else
        .ok (.constructed tag parts.flatten elements) := by
  have scanned := scan_framed { toTextOptions := options, mode, depth } within allowed short each
  rw [Value.ofElements?] at scanned
  split
  · next disordered =>
      rw [if_pos disordered] at scanned
      exact decode_of_error scanned
  · next ordered =>
      rw [if_neg ordered] at scanned
      rw [decode_of_ok scanned, if_pos rfl]

theorem decode_set_eq_ok_iff (within : depth ≤ Options.depthLimit)
    (short : parts.flatten.length < 2 ^ 64)
    (each : List.Forall₂ (IsElement options (depth + 1)) parts elements) {value : Value} :
    Options.decode { toTextOptions := options, mode := .der, depth }
        (Value.framed ⟨.set, true⟩ parts.flatten) = .ok value ↔
      value = .constructed .set parts.flatten elements ∧
        (elements.map Value.body).Pairwise (· ≤ ·) := by
  rw [decode_framed within rfl short each, ← Value.isAscending_iff_pairwise]
  cases ascending : Value.isAscending (elements.map Value.body) with
  | false => simp
  | true => simp [eq_comm]

/-- In whatever order elements are put, their encodings can be put in that order. -/
theorem exists_order_of_perm {sorted : List Value}
    (each : List.Forall₂ (IsElement options depth) parts elements) (perm : sorted.Perm elements) :
    ∃ order : List Octets, order.Perm parts ∧
      List.Forall₂ (IsElement options depth) order sorted := by
  obtain ⟨order, each, perm⟩ := List.perm_comp_forall₂ perm each.flip
  exact ⟨order, perm, each.flip⟩

/-- In whatever order encodings are put, they are those of the elements in that order. -/
theorem exists_elements_of_perm {order : List Octets}
    (each : List.Forall₂ (IsElement options depth) parts elements) (perm : order.Perm parts) :
    ∃ sorted : List Value, sorted.Perm elements ∧
      List.Forall₂ (IsElement options depth) order sorted := by
  obtain ⟨sorted, each, perm⟩ := List.perm_comp_forall₂ perm each
  exact ⟨sorted, perm, each⟩

/-- Encodings that are values on their own are put together. As a set under distinguished rules
this is decoded exactly if no content is greater than one behind it, where a proper prefix is
smaller, and is a broken format otherwise. As a set under basic rules, and as a sequence or a value
of another class, it is decoded in any order. Some order is accepted, and all orders that are have
the same series of contents. -/
theorem decode_set_iff_pairwise (options : TextOptions) (depth : Nat) (parts : List Octets)
    (elements : List Value) (within : depth ≤ Options.depthLimit)
    (short : parts.flatten.length < 2 ^ 64)
    (each : List.Forall₂ (IsElement options (depth + 1)) parts elements) :
    (∀ value, Options.decode { toTextOptions := options, mode := .der, depth }
        (Value.framed ⟨.set, true⟩ parts.flatten) = .ok value ↔
      value = .constructed .set parts.flatten elements ∧
        (elements.map Value.body).Pairwise (· ≤ ·)) ∧
    (¬ (elements.map Value.body).Pairwise (· ≤ ·) →
      Options.decode { toTextOptions := options, mode := .der, depth }
        (Value.framed ⟨.set, true⟩ parts.flatten) = .error .invalidFormat) ∧
    Options.decode { toTextOptions := options, mode := .ber, depth }
        (Value.framed ⟨.set, true⟩ parts.flatten) =
      .ok (.constructed .set parts.flatten elements) ∧
    (∀ tag : Tag, tag = .sequence ∨ tag.tagClass ≠ .universal →
      Options.decode { toTextOptions := options, mode := .der, depth }
          (Value.framed ⟨tag, true⟩ parts.flatten) =
        .ok (.constructed tag parts.flatten elements)) ∧
    (∃ order : List Octets, order.Perm parts ∧
      ∃ value, Options.decode { toTextOptions := options, mode := .der, depth }
        (Value.framed ⟨.set, true⟩ order.flatten) = .ok value) ∧
    ∀ (order other : List Octets) (value value' : Value), order.Perm parts → other.Perm parts →
      Options.decode { toTextOptions := options, mode := .der, depth }
        (Value.framed ⟨.set, true⟩ order.flatten) = .ok value →
      Options.decode { toTextOptions := options, mode := .der, depth }
        (Value.framed ⟨.set, true⟩ other.flatten) = .ok value' →
      value.elements.map Value.body = value'.elements.map Value.body := by
  have shortOf {order : List Octets} (perm : order.Perm parts) :
      order.flatten.length < 2 ^ 64 := by
    rwa [perm.flatten.length_eq]
  refine ⟨fun value => decode_set_eq_ok_iff within short each, fun disordered => ?_, ?_,
    fun tag allowed => ?_, ?_, ?_⟩
  · rw [← Value.isAscending_iff_pairwise, Bool.not_eq_true] at disordered
    rw [decode_framed within rfl short each, if_pos ⟨rfl, rfl, disordered⟩]
  · rw [decode_framed within rfl short each]
    exact if_neg fun disordered => nomatch disordered.1
  · have mayBe : Value.mayBeConstructed .der tag = true := by
      rw [Value.mayBeConstructed_der_iff]
      exact fun universal => .inl (allowed.resolve_right fun other => other universal)
    rw [decode_framed within mayBe short each]
    apply if_neg
    rintro ⟨-, rfl, -⟩
    rcases allowed with isSequence | notUniversal
    · cases isSequence
    · exact notUniversal rfl
  · obtain ⟨sorted, perm, pairwise⟩ := Value.exists_perm_pairwise elements
    obtain ⟨order, rearranged, each⟩ := exists_order_of_perm each perm
    exact ⟨order, rearranged, _,
      (decode_set_eq_ok_iff within (shortOf rearranged) each).mpr ⟨rfl, pairwise⟩⟩
  · intro order other value value' perm perm' decoded decoded'
    obtain ⟨first, same, eachFirst⟩ := exists_elements_of_perm each perm
    obtain ⟨second, same', eachSecond⟩ := exists_elements_of_perm each perm'
    obtain ⟨rfl, ascending⟩ :=
      (decode_set_eq_ok_iff within (shortOf perm) eachFirst).mp decoded
    obtain ⟨rfl, ascending'⟩ :=
      (decode_set_eq_ok_iff within (shortOf perm') eachSecond).mp decoded'
    have contents : (first.map Value.body).Perm (second.map Value.body) :=
      (same.trans same'.symm).map Value.body
    exact contents.eq_of_pairwise (fun _ _ _ _ => List.le_antisymm) ascending ascending'

/-- Of two contents of which one is a prefix of the other one, the shorter one has to come first in
a set. -/
theorem decode_set_of_prefix :
    Options.decode {} [0x31, 0x09, 0x81, 0x03, 0xab, 0xcd, 0xef, 0x81, 0x02, 0xab, 0xcd] =
        .error .invalidFormat ∧
      Options.decode { mode := .ber }
          [0x31, 0x09, 0x81, 0x03, 0xab, 0xcd, 0xef, 0x81, 0x02, 0xab, 0xcd] =
        .ok (.constructed .set [0x81, 0x03, 0xab, 0xcd, 0xef, 0x81, 0x02, 0xab, 0xcd]
          [.generic ⟨.contextSpecific, 1⟩ [0xab, 0xcd, 0xef],
            .generic ⟨.contextSpecific, 1⟩ [0xab, 0xcd]]) ∧
      ∃ order : List Octets,
        order.Perm [[0x81, 0x03, 0xab, 0xcd, 0xef], [0x81, 0x02, 0xab, 0xcd]] ∧
        ∃ value, Options.decode {} (Value.framed ⟨.set, true⟩ order.flatten) = .ok value := by
  have long : IsElement {} 1 [0x81, 0x03, 0xab, 0xcd, 0xef]
      (.generic ⟨.contextSpecific, 1⟩ [0xab, 0xcd, 0xef]) := rfl
  have short : IsElement {} 1 [0x81, 0x02, 0xab, 0xcd]
      (.generic ⟨.contextSpecific, 1⟩ [0xab, 0xcd]) := rfl
  obtain ⟨-, disordered, ber, -, ordered, -⟩ := decode_set_iff_pairwise {} 0
    [[0x81, 0x03, 0xab, 0xcd, 0xef], [0x81, 0x02, 0xab, 0xcd]] _ (by decide) (by decide)
    (.cons long (.cons short .nil))
  have written : Value.framed ⟨.set, true⟩
      ([[0x81, 0x03, 0xab, 0xcd, 0xef], [0x81, 0x02, 0xab, 0xcd]] : List Octets).flatten =
        [0x31, 0x09, 0x81, 0x03, 0xab, 0xcd, 0xef, 0x81, 0x02, 0xab, 0xcd] := rfl
  rw [written] at disordered ber
  exact ⟨disordered (by decide), ber, ordered⟩

end Parser

end Asn1
