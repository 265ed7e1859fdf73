import Asn1.Proofs.ObjectId

/-!
# The groups of an encoded identifier

Octets split into groups in at most one way, and each group writes a number of any size. Reading
with 32 bits gives these numbers if all of them fit, and nothing otherwise. Leading zero digits make
no difference.
-/

namespace Asn1.ObjectId

/-- Octets that have the high bit set, and then one that does not. -/
def IsDelimited (group : Octets) : Prop :=
  ∃ leading last, group = leading ++ [last] ∧ (∀ octet ∈ leading, 128 ≤ octet.toNat) ∧
    last.toNat < 128

/-- The octets are the first one, which has two components, and a group for each further one. -/
def SplitsInto (id : ObjectId) (head : UInt8) (groups : List Octets) : Prop :=
  id.octets = head :: groups.flatten ∧ ∀ group ∈ groups, IsDelimited group

/-- The numbers that the first octet and the groups write, however large they are. -/
def numbers (head : UInt8) (groups : List Octets) : List Nat :=
  head.toNat / 40 :: head.toNat % 40 :: groups.map (septets 0)

theorem septets_append (number : Nat) (front back : Octets) :
    septets number (front ++ back) = septets (septets number front) back :=
  List.foldl_append

theorem isGroup_iff {group : Octets} {component : UInt32} :
    IsGroup group component ↔ IsDelimited group ∧ septets 0 group = component.toNat := by
  constructor
  · rintro ⟨leading, last, split, each, final, written⟩
    exact ⟨⟨leading, last, split, each, final⟩, written⟩
  · rintro ⟨⟨leading, last, split, each, final⟩, written⟩
    exact ⟨leading, last, split, each, final, written⟩

theorem forall₂_isGroup_iff {groups : List Octets} {components : List UInt32} :
    List.Forall₂ IsGroup groups components ↔
      (∀ group ∈ groups, IsDelimited group) ∧
        components.map UInt32.toNat = groups.map (septets 0) := by
  induction groups generalizing components with
  | nil => simp
  | cons group groups inductionHypothesis =>
      cases components with
      | nil => simp
      | cons component components =>
          rw [List.forall₂_cons, isGroup_iff, inductionHypothesis, List.forall_mem_cons,
            List.map_cons, List.map_cons, List.cons.injEq, eq_comm (a := septets 0 group)]
          exact and_and_and_comm

theorem IsDelimited.eq_of_append_eq {first second rest others : Octets}
    (delimited : IsDelimited first) (delimited' : IsDelimited second)
    (same : first ++ rest = second ++ others) : first = second ∧ rest = others := by
  obtain ⟨leading, last, rfl, each, final⟩ := delimited
  obtain ⟨leading', last', rfl, each', final'⟩ := delimited'
  induction leading generalizing leading' with
  | nil =>
      cases leading' with
      | nil => simpa using same
      | cons octet leading' =>
          obtain ⟨rfl, -⟩ := List.cons.inj same
          exact absurd (each' last List.mem_cons_self) (Nat.not_le.mpr final)
  | cons octet leading inductionHypothesis =>
      cases leading' with
      | nil =>
          obtain ⟨rfl, -⟩ := List.cons.inj same
          exact absurd (each octet List.mem_cons_self) (Nat.not_le.mpr final')
      | cons octet' leading' =>
          simp only [List.cons_append, List.cons.injEq] at same
          obtain ⟨rfl, same⟩ := same
          rw [List.forall_mem_cons] at each each'
          have later := inductionHypothesis each.2 leading' same each'.2
          rw [List.cons_append, List.cons_append, later.1]
          exact ⟨rfl, later.2⟩

theorem IsDelimited.ne_nil {group : Octets} (delimited : IsDelimited group) : group ≠ [] := by
  obtain ⟨leading, last, rfl, -⟩ := delimited
  exact List.append_ne_nil_of_right_ne_nil leading (List.cons_ne_nil last [])

theorem eq_of_flatten_eq {groups others : List Octets}
    (delimited : ∀ group ∈ groups, IsDelimited group)
    (delimited' : ∀ group ∈ others, IsDelimited group)
    (same : groups.flatten = others.flatten) : groups = others := by
  induction groups generalizing others with
  | nil =>
      cases others with
      | nil => rfl
      | cons other others =>
          have empty := (List.append_eq_nil_iff.mp same.symm).1
          exact absurd empty (delimited' other List.mem_cons_self).ne_nil
  | cons group groups inductionHypothesis =>
      cases others with
      | nil =>
          have empty := (List.append_eq_nil_iff.mp same).1
          exact absurd empty (delimited group List.mem_cons_self).ne_nil
      | cons other others =>
          rw [List.forall_mem_cons] at delimited delimited'
          obtain ⟨rfl, later⟩ := delimited.1.eq_of_append_eq delimited'.1 same
          rw [inductionHypothesis delimited.2 delimited'.2 later]

/-- There is only one way to split an identifier. -/
theorem SplitsInto.unique {id : ObjectId} {head other : UInt8} {groups others : List Octets}
    (splits : id.SplitsInto head groups) (splits' : id.SplitsInto other others) :
    head = other ∧ groups = others := by
  obtain ⟨rfl, same⟩ := List.cons.inj (splits.1.symm.trans splits'.1)
  exact ⟨rfl, eq_of_flatten_eq splits.2 splits'.2 same⟩

theorem components?_eq_some_iff_splitsInto {id : ObjectId} {components : List UInt32} :
    id.components? = some components ↔
      ∃ head groups, id.SplitsInto head groups ∧
        components.map UInt32.toNat = numbers head groups := by
  rw [components?_eq_some_iff]
  constructor
  · rintro ⟨head, groups, further, split, each, rfl⟩
    obtain ⟨delimited, written⟩ := forall₂_isGroup_iff.mp each
    refine ⟨head, groups, ⟨split, delimited⟩, ?_⟩
    have bound := head.toNat_lt
    rw [List.map_cons, List.map_cons, written, numbers, UInt32.toNat_ofNat', UInt32.toNat_ofNat',
      Nat.mod_eq_of_lt (by omega), Nat.mod_eq_of_lt (by omega)]
  · rintro ⟨head, groups, ⟨split, delimited⟩, written⟩
    obtain ⟨first, _, rfl, isFirst, written⟩ := List.map_eq_cons_iff.mp written
    obtain ⟨second, further, rfl, isSecond, written⟩ := List.map_eq_cons_iff.mp written
    refine ⟨head, groups, further, split, forall₂_isGroup_iff.mpr ⟨delimited, written⟩, ?_⟩
    rw [← isFirst, ← isSecond, UInt32.ofNat_toNat, UInt32.ofNat_toNat]

theorem map_toNat_map_ofNat {numbers : List Nat} (fit : ∀ number ∈ numbers, number < 2 ^ 32) :
    (numbers.map UInt32.ofNat).map UInt32.toNat = numbers := by
  rw [List.map_map]
  refine (List.map_congr_left fun number membership => ?_).trans (List.map_id numbers)
  rw [Function.comp_apply, UInt32.toNat_ofNat', Nat.mod_eq_of_lt (fit number membership), id]

theorem forall_mem_numbers_iff (head : UInt8) {groups : List Octets} :
    (∀ number ∈ numbers head groups, number < 2 ^ 32) ↔
      ∀ group ∈ groups, septets 0 group < 2 ^ 32 := by
  have bound := head.toNat_lt
  rw [numbers, List.forall_mem_cons, List.forall_mem_cons, List.forall_mem_map]
  constructor
  · exact fun fit => fit.2.2
  · exact fun fit => ⟨by omega, by omega, fit⟩

theorem isSome_components?_iff {id : ObjectId} :
    id.components?.isSome = true ↔
      ∃ head groups, id.SplitsInto head groups ∧ ∀ group ∈ groups, septets 0 group < 2 ^ 32 := by
  rw [Option.isSome_iff_exists]
  simp only [components?_eq_some_iff_splitsInto]
  constructor
  · rintro ⟨components, head, groups, splits, written⟩
    refine ⟨head, groups, splits, (forall_mem_numbers_iff head).mp ?_⟩
    rw [← written, List.forall_mem_map]
    exact fun component _ => component.toNat_lt
  · rintro ⟨head, groups, splits, fit⟩
    have same := map_toNat_map_ofNat ((forall_mem_numbers_iff head).mpr fit)
    exact ⟨_, head, groups, splits, same⟩

/-- Appending octets one after another loses no bits: it succeeds exactly if the number that they
write fits 32 bits, and gives that number. -/
theorem foldlM_extend?_eq_some_iff {number next : UInt32} {octets : Octets} :
    octets.foldlM extend? number = some next ↔ next.toNat = septets number.toNat octets := by
  induction octets generalizing number with
  | nil =>
      rw [List.foldlM_nil, septets, List.foldl_nil, UInt32.toNat_inj, eq_comm]
      exact Option.some_inj
  | cons octet octets inductionHypothesis =>
      rw [List.foldlM_cons, Option.bind_eq_bind, Option.bind_eq_some_iff, septets,
        List.foldl_cons]
      simp only [extend?_eq_some_iff, inductionHypothesis]
      constructor
      · rintro ⟨extended, isExtended, written⟩
        rw [written, isExtended, septets]
      · intro written
        have within : number.toNat * 128 + octet.toNat % 128 ≤ _ :=
          Nat.le_trans (le_septets _ octets) (Nat.le_of_eq written.symm)
        obtain ⟨extended, isExtended⟩ := exists_toNat_eq within
        refine ⟨extended, isExtended, ?_⟩
        rw [written, isExtended, septets]

theorem septets_replicate (count : Nat) : septets 0 (List.replicate count 0x80) = 0 := by
  induction count with
  | zero => rfl
  | succ count inductionHypothesis =>
      rw [List.replicate_succ, septets, List.foldl_cons]
      exact inductionHypothesis

theorem IsDelimited.padded {group : Octets} (delimited : IsDelimited group) (count : Nat) :
    IsDelimited (List.replicate count 0x80 ++ group) := by
  obtain ⟨leading, last, rfl, each, final⟩ := delimited
  refine ⟨List.replicate count 0x80 ++ leading, last, (List.append_assoc _ _ _).symm, ?_, final⟩
  rw [List.forall_mem_append]
  refine ⟨fun octet membership => ?_, each⟩
  rw [List.eq_of_mem_replicate membership]
  decide

theorem numbers_padded (head : UInt8) (front back : List Octets) (group : Octets) (count : Nat) :
    numbers head (front ++ (List.replicate count 0x80 ++ group) :: back) =
      numbers head (front ++ group :: back) := by
  have same : septets 0 (List.replicate count 0x80 ++ group) = septets 0 group := by
    rw [septets_append, septets_replicate]
  rw [numbers, numbers, List.map_append, List.map_append, List.map_cons, List.map_cons, same]

theorem SplitsInto.components?_eq_some_iff {id : ObjectId} {head : UInt8} {groups : List Octets}
    {components : List UInt32} (splits : id.SplitsInto head groups) :
    id.components? = some components ↔ components.map UInt32.toNat = numbers head groups := by
  rw [components?_eq_some_iff_splitsInto]
  constructor
  · rintro ⟨head, groups, splits', written⟩
    obtain ⟨rfl, rfl⟩ := splits.unique splits'
    exact written
  · exact fun written => ⟨head, groups, splits, written⟩

theorem SplitsInto.padded {id : ObjectId} {head : UInt8} {front back : List Octets}
    {group : Octets} (splits : id.SplitsInto head (front ++ group :: back)) (count : Nat) :
    SplitsInto ⟨head :: (front ++ (List.replicate count 0x80 ++ group) :: back).flatten⟩ head
      (front ++ (List.replicate count 0x80 ++ group) :: back) := by
  obtain ⟨-, delimited⟩ := splits
  rw [List.forall_mem_append, List.forall_mem_cons] at delimited
  obtain ⟨before, delimited, behind⟩ := delimited
  exact ⟨rfl, List.forall_mem_append.mpr
    ⟨before, List.forall_mem_cons.mpr ⟨delimited.padded count, behind⟩⟩⟩

/-- Components are read exactly if the octets behind the first one split into groups whose numbers
have 32 bits. They are then the two numbers in the first octet and those of the groups. No bit is
lost on the way, and zero digits in front of a group make no difference. -/
theorem components?_of_groups (id : ObjectId) :
    (id.components?.isSome = true ↔
      ∃ head groups, id.SplitsInto head groups ∧ ∀ group ∈ groups, septets 0 group < 2 ^ 32) ∧
    (∀ components : List UInt32, id.components? = some components ↔
      ∃ head groups, id.SplitsInto head groups ∧
        components.map UInt32.toNat = numbers head groups) ∧
    (∀ (number next : UInt32) (octets : Octets),
      octets.foldlM extend? number = some next ↔ next.toNat = septets number.toNat octets) ∧
    ∀ (head : UInt8) (front back : List Octets) (group : Octets) (count : Nat),
      id.SplitsInto head (front ++ group :: back) →
        components? ⟨head :: (front ++ (List.replicate count 0x80 ++ group) :: back).flatten⟩ =
          id.components? := by
  refine ⟨isSome_components?_iff, fun _ => components?_eq_some_iff_splitsInto,
    fun _ _ _ => foldlM_extend?_eq_some_iff, ?_⟩
  intro head front back group count splits
  apply Option.ext
  intro components
  rw [(splits.padded count).components?_eq_some_iff, splits.components?_eq_some_iff,
    numbers_padded]

theorem components?_padded_one : components? ⟨[0x2a, 0x80, 0x80, 0x01]⟩ = some [1, 2, 1] := by
  have splits : SplitsInto ⟨[0x2a, 0x01]⟩ 0x2a ([] ++ [0x01] :: []) := by
    refine ⟨rfl, List.forall_mem_singleton.mpr ⟨[], 0x01, rfl, nofun, by decide⟩⟩
  exact (components?_of_groups ⟨[0x2a, 0x01]⟩).2.2.2 0x2a [] [] [0x01] 2 splits

end Asn1.ObjectId
