import Asn1.Proofs.ObjectId.Groups
import Asn1.Proofs.Parser

/-!
# Encoding the components of an identifier

The components that are encoded are those that are read, also from the identifier as a value. Other
identifiers with the same components only differ in zero digits in front of a group, and are longer.
-/

namespace Asn1.ObjectId

theorem septets_concat (number : Nat) (octets : Octets) (octet : UInt8) :
    septets number (octets ++ [octet]) = septets number octets * 128 + octet.toNat % 128 := by
  rw [septets_append]
  rfl

theorem continued_zero : continued 0 = [] := by
  rw [continued, if_pos rfl]

theorem continued_of_ne_zero {number : Nat} (nonzero : number ≠ 0) :
    continued number = continued (number / 128) ++ [UInt8.ofNat (128 + number % 128)] := by
  rw [continued, if_neg nonzero]

theorem toNat_leading (digit : Nat) :
    (UInt8.ofNat (128 + digit % 128)).toNat = 128 + digit % 128 := by
  rw [UInt8.toNat_ofNat']
  omega

theorem septets_continued (number : Nat) : septets 0 (continued number) = number := by
  fun_induction continued number with
  | case1 => rfl
  | case2 number nonzero inductionHypothesis =>
      rw [septets_concat, inductionHypothesis, toNat_leading]
      omega

theorem le_toNat_of_mem_continued (number : Nat) :
    ∀ octet ∈ continued number, 128 ≤ octet.toNat := by
  fun_induction continued number with
  | case1 => nofun
  | case2 number nonzero inductionHypothesis =>
      rw [List.forall_mem_append, List.forall_mem_singleton, toNat_leading]
      exact ⟨inductionHypothesis, Nat.le_add_right 128 _⟩

theorem length_continued_le {number count : Nat} (bound : number < 128 ^ count) :
    (continued number).length ≤ count := by
  induction count generalizing number with
  | zero =>
      rw [Nat.lt_one_iff.mp bound, continued_zero]
      exact Nat.le_refl 0
  | succ count inductionHypothesis =>
      by_cases zero : number = 0
      · rw [zero, continued_zero]
        exact Nat.zero_le _
      · have fewer : (continued (number / 128)).length ≤ count := by
          apply inductionHypothesis
          rw [Nat.pow_succ] at bound
          omega
        rw [continued_of_ne_zero zero, List.length_append]
        exact Nat.succ_le_succ fewer

/-- The digits of a component fit a buffer of five, whatever its 32 bits are. -/
theorem length_group_le (component : UInt32) : (group component).length ≤ 5 := by
  have bound := component.toNat_lt
  have leading : (continued (component.toNat / 128)).length ≤ 4 := by
    apply length_continued_le
    omega
  rw [group, List.length_append]
  exact Nat.succ_le_succ leading

theorem isGroup_group (component : UInt32) : IsGroup (group component) component := by
  have last : (UInt8.ofNat (component.toNat % 128)).toNat = component.toNat % 128 := by
    rw [UInt8.toNat_ofNat']
    omega
  refine ⟨_, _, rfl, le_toNat_of_mem_continued _, ?_, ?_⟩
  · omega
  · rw [group, septets_concat, septets_continued, last]
    omega

theorem continued_concat {number : Nat} {octet : UInt8} (more : 128 ≤ octet.toNat)
    (nonzero : number * 128 + octet.toNat % 128 ≠ 0) :
    continued (number * 128 + octet.toNat % 128) = continued number ++ [octet] := by
  have bound := octet.toNat_lt
  have front : (number * 128 + octet.toNat % 128) / 128 = number := by omega
  have last : 128 + (number * 128 + octet.toNat % 128) % 128 = octet.toNat := by omega
  rw [continued_of_ne_zero nonzero, front, last, UInt8.ofNat_toNat]

theorem eq_of_toNat_mod_eq_zero {octet : UInt8} (more : 128 ≤ octet.toNat)
    (zero : octet.toNat % 128 = 0) : octet = 0x80 := by
  have bound := octet.toNat_lt
  apply UInt8.toNat_inj.mp
  rw [show (0x80 : UInt8).toNat = 128 from rfl]
  omega

/-- Leading digits are the shortest ones that write their number unless the first of them is zero,
and otherwise longer. -/
theorem continued_septets {leading : Octets} (each : ∀ octet ∈ leading, 128 ≤ octet.toNat) :
    (continued (septets 0 leading)).length ≤ leading.length ∧
      (continued (septets 0 leading) = leading ↔ leading.head? ≠ some 0x80) := by
  induction leading using List.reverseRecOn with
  | nil => simp [septets, continued_zero]
  | append_singleton leading octet inductionHypothesis =>
      rw [List.forall_mem_append, List.forall_mem_singleton] at each
      obtain ⟨each, more⟩ := each
      obtain ⟨shorter, same_iff⟩ := inductionHypothesis each
      rw [septets_concat]
      by_cases zero : septets 0 leading * 128 + octet.toNat % 128 = 0
      · have isZero : octet = 0x80 := eq_of_toNat_mod_eq_zero more (by omega)
        have noLeading : septets 0 leading = 0 := by omega
        rw [noLeading, continued_zero] at same_iff
        rw [zero, continued_zero]
        cases leading with
        | nil => simp [isZero]
        | cons first leading => simpa using same_iff
      · rw [continued_concat more zero, List.append_left_inj, same_iff]
        cases leading with
        | nil =>
            have notZero : octet ≠ 0x80 := by
              rintro rfl
              exact zero rfl
            simp [septets, continued_zero, notZero]
        | cons first leading => simpa using shorter

/-- A group is no shorter than the one that is written for its component, and only a group that
starts with a zero digit is another one. -/
theorem IsGroup.group {octets : Octets} {component : UInt32} (isGroup : IsGroup octets component) :
    (group component).length ≤ octets.length ∧
      (group component = octets ↔ octets.head? ≠ some 0x80) := by
  obtain ⟨leading, last, rfl, each, final, written⟩ := isGroup
  obtain ⟨shorter, same_iff⟩ := continued_septets each
  rw [septets_concat] at written
  have front : component.toNat / 128 = septets 0 leading := by omega
  have isLast : component.toNat % 128 = last.toNat := by omega
  rw [ObjectId.group, front, isLast, UInt8.ofNat_toNat, List.append_left_inj, same_iff]
  refine ⟨by simpa using shorter, ?_⟩
  cases leading with
  | nil =>
      have notZero : last ≠ 0x80 := by
        rintro rfl
        exact absurd final (by decide)
      simp [notZero]
  | cons first leading => simp

/-- Among all groups with some components, those that are written are the shortest, and the only
ones without zero digits in front. -/
theorem map_group_of_forall₂ {groups : List Octets} {components : List UInt32}
    (each : List.Forall₂ IsGroup groups components) :
    (components.map group).flatten.length ≤ groups.flatten.length ∧
      (components.map group = groups ↔ ∀ group ∈ groups, group.head? ≠ some 0x80) := by
  induction each with
  | nil => simp
  | cons isGroup _ inductionHypothesis =>
      obtain ⟨shorter, same_iff⟩ := isGroup.group
      rw [List.map_cons, List.flatten_cons, List.flatten_cons, List.length_append,
        List.length_append, List.cons.injEq, List.forall_mem_cons, same_iff, inductionHypothesis.2]
      exact ⟨Nat.add_le_add shorter inductionHypothesis.1, Iff.rfl⟩

theorem isDelimited_of_mem_map_group (components : List UInt32) :
    ∀ octets ∈ components.map group, IsDelimited octets := by
  rw [List.forall_mem_map]
  exact fun component _ => (isGroup_iff.mp (isGroup_group component)).1

theorem ofComponents?_eq_some_iff {components : List UInt32} {id : ObjectId} :
    ofComponents? components = some id ↔
      ∃ first second further, components = first :: second :: further ∧ second.toNat < 40 ∧
        40 * first.toNat + second.toNat ≤ 255 ∧
        id = ⟨UInt8.ofNat (40 * first.toNat + second.toNat) :: further.flatMap group⟩ := by
  unfold ofComponents?
  split
  next first second further =>
    rw [Option.ite_none_right_eq_some]
    constructor
    · rintro ⟨⟨small, fits⟩, same⟩
      cases same
      exact ⟨first, second, further, rfl, small, by omega, by rw [Nat.mul_comm 40]⟩
    · rintro ⟨_, _, _, same, small, fits, rfl⟩
      cases same
      exact ⟨⟨small, by omega⟩, by rw [Nat.mul_comm 40]⟩
  next short =>
    simp only [reduceCtorEq, false_iff]
    rintro ⟨first, second, further, same, -⟩
    exact short first second further same

theorem splitsInto_map_group (head : UInt8) (further : List UInt32) :
    SplitsInto ⟨head :: further.flatMap group⟩ head (further.map group) :=
  ⟨by rw [List.flatMap_def], isDelimited_of_mem_map_group further⟩

theorem numbers_map_group {head : UInt8} {first second : UInt32} {further : List UInt32}
    (isFirst : first.toNat = head.toNat / 40) (isSecond : second.toNat = head.toNat % 40) :
    (first :: second :: further).map UInt32.toNat = numbers head (further.map group) := by
  have each : further.map UInt32.toNat = (further.map group).map (septets 0) := by
    rw [List.map_map]
    apply List.map_congr_left
    exact fun component _ => (isGroup_iff.mp (isGroup_group component)).2.symm
  rw [List.map_cons, List.map_cons, numbers, isFirst, isSecond, each]

theorem components?_of_ofComponents? {components : List UInt32} {id : ObjectId}
    (encoded : ofComponents? components = some id) : id.components? = some components := by
  obtain ⟨first, second, further, rfl, small, fits, rfl⟩ := ofComponents?_eq_some_iff.mp encoded
  rw [(splitsInto_map_group _ further).components?_eq_some_iff]
  have head : (UInt8.ofNat (40 * first.toNat + second.toNat)).toNat =
      40 * first.toNat + second.toNat := by
    rw [UInt8.toNat_ofNat', Nat.mod_eq_of_lt (by omega)]
  apply numbers_map_group
  · omega
  · omega

theorem ofComponents?_of_encodes (head : UInt8) (further : List UInt32) :
    ofComponents? (UInt32.ofNat (head.toNat / 40) :: UInt32.ofNat (head.toNat % 40) :: further) =
      some ⟨head :: further.flatMap group⟩ := by
  have bound := head.toNat_lt
  have first : (UInt32.ofNat (head.toNat / 40)).toNat = head.toNat / 40 := by
    rw [UInt32.toNat_ofNat', Nat.mod_eq_of_lt (by omega)]
  have second : (UInt32.ofNat (head.toNat % 40)).toNat = head.toNat % 40 := by
    rw [UInt32.toNat_ofNat', Nat.mod_eq_of_lt (by omega)]
  rw [ofComponents?_eq_some_iff]
  refine ⟨_, _, further, rfl, ?_, ?_, ?_⟩
  · rw [second]
    exact Nat.mod_lt _ (by decide)
  · rw [first, second, Nat.div_add_mod]
    omega
  · rw [first, second, Nat.div_add_mod, UInt8.ofNat_toNat]

/-- An identifier as a value is decoded under all rules. -/
theorem decode_objectId {id : ObjectId} {components : List UInt32} {options : Options}
    (read : id.components? = some components) (short : id.octets.length < 2 ^ 64)
    (within : options.depth ≤ Options.depthLimit) :
    options.decode (0x06 :: (Length.encode id.octets.length ++ id.octets)) =
      .ok (.objectId id) := by
  have valid : id.isValid = true := Option.isSome_of_eq_some read
  rw [Parser.decode_eq_ok_iff]
  refine ⟨.primitive (Length.encode id.octets.length) (.objectId id), ?_, ?_, ?_⟩
  · rw [Encoding.follows_primitive_iff]
    exact ⟨within, Length.announces_encode short, fun _ => Length.shortest_encode short, valid⟩
  · rw [Encoding.octets_primitive]
    rfl
  · rw [Encoding.value_primitive]

/-- Encoding and reading components are inverse to each other, except for zero digits in front of
groups. Components are encoded exactly if there are two, the first two of which fit into an octet.
They are read again from the identifier, and from it as a value under all rules. An identifier that
has components is encoded in the shortest form, which is another one only if a group in it starts
with a zero digit. -/
theorem ofComponents?_inverse_components? :
    (∀ components : List UInt32, (ofComponents? components).isSome = true ↔
      ∃ first second further, components = first :: second :: further ∧ second.toNat < 40 ∧
        40 * first.toNat + second.toNat ≤ 255) ∧
    (∀ (components : List UInt32) (id : ObjectId), ofComponents? components = some id →
      id.components? = some components ∧
        ∀ options : Options, options.depth ≤ Options.depthLimit → id.octets.length < 2 ^ 64 →
          options.decode (0x06 :: (Length.encode id.octets.length ++ id.octets)) =
            .ok (.objectId id)) ∧
    ∀ (id : ObjectId) (components : List UInt32), id.components? = some components →
      ∃ shortest : ObjectId, ofComponents? components = some shortest ∧
        shortest.components? = some components ∧
        shortest.octets.length ≤ id.octets.length ∧
        (∃ head groups, id.SplitsInto head groups) ∧
        ∀ head groups, id.SplitsInto head groups →
          (shortest = id ↔ ∀ group ∈ groups, group.head? ≠ some 0x80) := by
  refine ⟨fun components => ?_, fun components id encoded => ?_, fun id components read => ?_⟩
  · rw [Option.isSome_iff_exists]
    simp only [ofComponents?_eq_some_iff]
    constructor
    · rintro ⟨id, first, second, further, same, small, fits, -⟩
      exact ⟨first, second, further, same, small, fits⟩
    · rintro ⟨first, second, further, same, small, fits⟩
      exact ⟨_, first, second, further, same, small, fits, rfl⟩
  · have read := components?_of_ofComponents? encoded
    exact ⟨read, fun options within short => decode_objectId read short within⟩
  · obtain ⟨octets⟩ := id
    obtain ⟨head, groups, further, rfl, each, rfl⟩ := components?_eq_some_iff.mp read
    obtain ⟨shorter, same_iff⟩ := map_group_of_forall₂ each
    have delimited := (forall₂_isGroup_iff.mp each).1
    have splits : SplitsInto ⟨head :: groups.flatten⟩ head groups := ⟨rfl, delimited⟩
    have encoded := ofComponents?_of_encodes head further
    refine ⟨_, encoded, components?_of_ofComponents? encoded, ?_, ⟨head, groups, splits⟩, ?_⟩
    · rw [List.flatMap_def]
      exact Nat.succ_le_succ shorter
    · intro other others splits'
      obtain ⟨rfl, rfl⟩ := splits.unique splits'
      rw [← same_iff, ObjectId.mk.injEq, List.cons_inj_right, List.flatMap_def]
      exact ⟨eq_of_flatten_eq (isDelimited_of_mem_map_group further) delimited,
        congrArg List.flatten⟩

/-- A zero digit in front of a group is left out. -/
theorem ofComponents?_padded_one :
    ∃ shortest : ObjectId, ofComponents? [1, 2, 1] = some shortest ∧
      shortest ≠ ⟨[0x2a, 0x80, 0x01]⟩ ∧
      Options.decode {} (0x06 :: (Length.encode shortest.octets.length ++ shortest.octets)) =
        .ok (.objectId shortest) := by
  obtain ⟨-, ofEncoded, ofRead⟩ := ofComponents?_inverse_components?
  have splits : SplitsInto ⟨[0x2a, 0x80, 0x01]⟩ 0x2a [[0x80, 0x01]] :=
    ⟨rfl, List.forall_mem_singleton.mpr
      ⟨[0x80], 0x01, rfl, List.forall_mem_singleton.mpr (by decide), by decide⟩⟩
  obtain ⟨shortest, encoded, -, shorter, -, same_iff⟩ := ofRead ⟨[0x2a, 0x80, 0x01]⟩ [1, 2, 1] rfl
  refine ⟨shortest, encoded, ?_, ?_⟩
  · rw [ne_eq, same_iff _ _ splits]
    decide
  · have short : shortest.octets.length < 2 ^ 64 := Nat.lt_of_le_of_lt shorter (by decide)
    exact (ofEncoded _ _ encoded).2 {} (by decide) short

end Asn1.ObjectId
