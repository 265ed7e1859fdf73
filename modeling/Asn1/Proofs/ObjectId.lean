import Asn1.ObjectId
import Asn1.Proofs.Numeral
import Mathlib.Data.List.Forall2
import Mathlib.Data.Nat.Bitwise

/-!
# Object identifiers, encoded and in dotted notation

Which octets are a valid identifier, and which texts can be encoded. Groups of octets and the parts
of a text are found by where they end, whatever reads them from the front.
-/

namespace Asn1.ObjectId

/-- The number that octets write with seven bits each, behind a number that is written already. -/
def septets (number : Nat) (octets : Octets) : Nat :=
  octets.foldl (fun value octet => value * 128 + octet.toNat % 128) number

/-- Octets finish a group: the high bit is set in all but the last. Together with the number that is
written already they write the component. -/
def Finishes (number : Nat) (octets : Octets) (component : UInt32) : Prop :=
  ∃ leading last, octets = leading ++ [last] ∧ (∀ octet ∈ leading, 128 ≤ octet.toNat) ∧
    last.toNat < 128 ∧ septets number octets = component.toNat

/-- Octets that write one component. -/
def IsGroup (group : Octets) (component : UInt32) : Prop := Finishes 0 group component

/-- Octets that are an identifier with the components. The first octet has two of them. -/
def Encodes (octets : Octets) (components : List UInt32) : Prop :=
  ∃ head groups further, octets = head :: groups.flatten ∧ List.Forall₂ IsGroup groups further ∧
    components =
      UInt32.ofNat (head.toNat / 40) :: UInt32.ofNat (head.toNat % 40) :: further

theorem le_septets (number : Nat) (octets : Octets) : number ≤ septets number octets := by
  induction octets generalizing number with
  | nil => exact Nat.le_refl number
  | cons octet octets inductionHypothesis =>
      have later := inductionHypothesis (number * 128 + octet.toNat % 128)
      rw [septets, List.foldl_cons]
      exact Nat.le_trans (by omega) later

theorem toNat_and_low (octet : UInt8) : (octet &&& 0x7f).toUInt32.toNat = octet.toNat % 128 := by
  rw [UInt8.toNat_toUInt32, UInt8.toNat_and]
  exact Nat.and_two_pow_sub_one_eq_mod octet.toNat 7

theorem and_high_eq_zero_iff {octet : UInt8} : octet &&& 0x80 = 0 ↔ octet.toNat < 128 := by
  have bound := octet.toNat_lt
  have highBit : octet.toNat &&& 128 = (octet.toNat.testBit 7).toNat * 128 :=
    Nat.and_two_pow octet.toNat 7
  rw [← UInt8.toNat_inj, UInt8.toNat_and, show (0x80 : UInt8).toNat = 128 from rfl, highBit,
    Nat.testBit_eq_decide_div_mod_eq]
  by_cases small : octet.toNat < 128
  · have clear : octet.toNat / 2 ^ 7 % 2 ≠ 1 := by omega
    rw [decide_eq_false clear]
    exact iff_of_true rfl small
  · have set : octet.toNat / 2 ^ 7 % 2 = 1 := by omega
    rw [decide_eq_true set]
    exact iff_of_false (by decide) small

/-- A number of 32 bits is extended exactly if the extended number fits 32 bits, and then no bit is
lost. -/
theorem extend?_eq_some_iff {number next : UInt32} {octet : UInt8} :
    extend? number octet = some next ↔
      next.toNat = number.toNat * 128 + octet.toNat % 128 := by
  have low : octet.toNat % 128 < 2 ^ 7 := Nat.mod_lt _ (by decide)
  have limit : ((0xffffffff : UInt32) >>> 7).toNat = 0x1ffffff := rfl
  have bound := next.toNat_lt
  unfold extend?
  split
  next refused =>
    rw [UInt32.lt_iff_toNat_lt, limit] at refused
    simp only [reduceCtorEq, false_iff]
    omega
  next allowed =>
    rw [UInt32.lt_iff_toNat_lt, limit] at allowed
    have kept : (number <<< 7).toNat = number.toNat <<< 7 := by
      rw [UInt32.toNat_shiftLeft]
      apply Nat.mod_eq_of_lt
      simp only [UInt32.reduceToNat, Nat.reduceMod, Nat.shiftLeft_eq]
      omega
    have extended : (number <<< 7 ||| (octet &&& 0x7f).toUInt32).toNat =
        number.toNat * 128 + octet.toNat % 128 := by
      rw [UInt32.toNat_or, toNat_and_low, kept, ← Nat.shiftLeft_add_eq_or_of_lt low,
        Nat.shiftLeft_eq]
    rw [Option.some_inj, ← UInt32.toNat_inj, extended, eq_comm]

theorem Finishes.cons {number : Nat} {octet : UInt8} {octets : Octets} {component : UInt32}
    (more : 128 ≤ octet.toNat)
    (finishes : Finishes (number * 128 + octet.toNat % 128) octets component) :
    Finishes number (octet :: octets) component := by
  obtain ⟨leading, last, rfl, each, final, written⟩ := finishes
  exact ⟨octet :: leading, last, rfl, List.forall_mem_cons.mpr ⟨more, each⟩, final, written⟩

/-- A number that does not exceed a number of 32 bits has 32 bits. -/
theorem exists_toNat_eq {number : Nat} {limit : UInt32} (within : number ≤ limit.toNat) :
    ∃ word : UInt32, word.toNat = number :=
  ⟨UInt32.ofNatLT number (Nat.lt_of_le_of_lt within limit.toNat_lt), rfl⟩

theorem groups?_of_last {open? : Option UInt32} {octet : UInt8} {component : UInt32}
    (extended : extend? (open?.getD 0) octet = some component) (final : octet.toNat < 128)
    (rest : Octets) :
    groups? open? (octet :: rest) = (groups? none rest).map (component :: ·) := by
  rw [groups?, extended]
  exact if_pos (and_high_eq_zero_iff.mpr final)

theorem groups?_of_leading {open? : Option UInt32} {octet : UInt8} {next : UInt32}
    (extended : extend? (open?.getD 0) octet = some next) (more : 128 ≤ octet.toNat)
    (rest : Octets) : groups? open? (octet :: rest) = groups? (some next) rest := by
  rw [groups?, extended]
  exact if_neg (mt and_high_eq_zero_iff.mp (Nat.not_lt.mpr more))

/-- Once a group is finished, the others are read as if nothing stood before them. -/
theorem groups?_of_finishes {open? : Option UInt32} {octets : Octets} {component : UInt32}
    (finishes : Finishes (open?.getD 0).toNat octets component) (rest : Octets) :
    groups? open? (octets ++ rest) = (groups? none rest).map (component :: ·) := by
  obtain ⟨leading, last, rfl, each, final, written⟩ := finishes
  induction leading generalizing open? with
  | nil => exact groups?_of_last (extend?_eq_some_iff.mpr written.symm) final rest
  | cons octet leading inductionHypothesis =>
      rw [List.forall_mem_cons] at each
      have within := le_septets ((open?.getD 0).toNat * 128 + octet.toNat % 128)
        (leading ++ [last])
      obtain ⟨next, isNext⟩ := exists_toNat_eq (Nat.le_trans within (Nat.le_of_eq written))
      rw [List.cons_append, List.cons_append,
        groups?_of_leading (extend?_eq_some_iff.mpr isNext) each.1]
      apply inductionHypothesis each.2
      rw [Option.getD_some, isNext]
      exact written

theorem groups?_flatten {groups : List Octets} {components : List UInt32}
    (each : List.Forall₂ IsGroup groups components) :
    groups? none groups.flatten = some components := by
  induction each with
  | nil => rfl
  | cons first _ inductionHypothesis =>
      have finishes : Finishes ((none : Option UInt32).getD 0).toNat _ _ := first
      rw [List.flatten_cons, groups?_of_finishes finishes, inductionHypothesis]
      rfl

/-- What is read is nothing, or what finishes the group that has begun and further groups. -/
theorem split_of_groups? {open? : Option UInt32} {octets : Octets} {components : List UInt32}
    (found : groups? open? octets = some components) :
    (open? = none ∧ octets = [] ∧ components = []) ∨
      ∃ first component groups further, octets = first ++ groups.flatten ∧
        components = component :: further ∧ Finishes (open?.getD 0).toNat first component ∧
        List.Forall₂ IsGroup groups further := by
  -- An octet with the high bit set opens a group or goes on with one: `Finishes` covers both.
  fun_induction groups? open? octets generalizing components
  case case1 open? closed =>
    cases found
    exact .inl ⟨Option.isNone_iff_eq_none.mp closed, rfl, rfl⟩
  case case2 => cases found
  case case3 => cases found
  case case4 open? octet rest component extended final inductionHypothesis =>
    rw [Option.map_eq_some_iff] at found
    obtain ⟨further, furtherFound, rfl⟩ := found
    have finishes : Finishes (open?.getD 0).toNat [octet] component :=
      ⟨[], octet, rfl, nofun, and_high_eq_zero_iff.mp final,
        (extend?_eq_some_iff.mp extended).symm⟩
    rcases inductionHypothesis furtherFound with
      ⟨-, rfl, rfl⟩ | ⟨next, following, groups, others, rfl, rfl, isGroup, each⟩
    · exact .inr ⟨[octet], _, [], [], rfl, rfl, finishes, .nil⟩
    · exact .inr ⟨[octet], _, next :: groups, _, rfl, rfl, finishes, .cons isGroup each⟩
  case case5 open? octet rest next extended more inductionHypothesis =>
    rcases inductionHypothesis found with
      ⟨isNone, _⟩ | ⟨first, component, groups, further, rfl, rfl, finishes, each⟩
    · cases isNone
    · rw [Option.getD_some, extend?_eq_some_iff.mp extended] at finishes
      exact .inr ⟨octet :: first, component, groups, further, rfl, rfl,
        finishes.cons (Nat.not_lt.mp (mt and_high_eq_zero_iff.mpr more)), each⟩

theorem groups?_eq_some_iff {octets : Octets} {components : List UInt32} :
    groups? none octets = some components ↔
      ∃ groups, octets = groups.flatten ∧ List.Forall₂ IsGroup groups components := by
  constructor
  · intro found
    rcases split_of_groups? found with
      ⟨-, rfl, rfl⟩ | ⟨first, component, groups, further, rfl, rfl, isGroup, each⟩
    · exact ⟨[], rfl, .nil⟩
    · exact ⟨first :: groups, rfl, .cons isGroup each⟩
  · rintro ⟨groups, rfl, each⟩
    exact groups?_flatten each

/-- An identifier has the components that its octets encode, and otherwise none. -/
theorem components?_eq_some_iff {id : ObjectId} {components : List UInt32} :
    id.components? = some components ↔ Encodes id.octets components := by
  obtain ⟨octets⟩ := id
  unfold components? Encodes
  cases octets with
  | nil =>
      constructor
      · nofun
      · rintro ⟨head, groups, further, isEmpty, _⟩
        cases isEmpty
  | cons head rest =>
      dsimp only
      simp only [Option.map_eq_some_iff, groups?_eq_some_iff]
      constructor
      · rintro ⟨further, ⟨groups, rfl, each⟩, rfl⟩
        exact ⟨head, groups, further, rfl, each, rfl⟩
      · rintro ⟨_, groups, further, split, each, rfl⟩
        cases split
        exact ⟨further, ⟨groups, rfl, each⟩, rfl⟩

/-- A part of a text that writes a component: decimal digits, with or without a plus sign. -/
def Writes (part : List Char) (component : UInt32) : Prop :=
  ∃ digits, (part = digits ∨ part = '+' :: digits) ∧ Decimal.value? digits = some component.toNat

/-- A text that has the components in dotted notation. -/
def Dotted (text : String) (components : List UInt32) : Prop :=
  ∃ parts, text.toList = ['.'].intercalate parts ∧ List.Forall₂ Writes parts components

/-- There are two components or more, and the first two fit into an octet. -/
def Encodable : List UInt32 → Prop
  | first :: second :: _ => second.toNat < 40 ∧ first.toNat * 40 + second.toNat < 256
  | _ => False

theorem splitAtDots_ne_nil (chars : List Char) : splitAtDots chars ≠ [] := by
  fun_cases splitAtDots chars <;> nofun

theorem splitAtDots_eq (chars : List Char) : splitAtDots chars = chars.splitOn '.' := by
  induction chars with
  | nil => rfl
  | cons char rest inductionHypothesis =>
      rw [splitAtDots, List.splitOn_cons_eq_if_modifyHead, ← inductionHypothesis]
      by_cases isDot : char = '.'
      · simp [isDot]
      · cases found : splitAtDots rest with
        | nil => exact absurd found (splitAtDots_ne_nil rest)
        | cons part parts => simp [isDot]

theorem component?_eq_some_iff {part : List Char} {component : UInt32} :
    component? part = some component ↔ Writes part component := by
  simp only [component?, Option.bind_eq_bind, Option.bind_eq_some_iff]
  constructor
  · rintro ⟨value, read, found⟩
    split at found
    · next fits =>
        cases found
        refine ⟨_, ?_, read⟩
        cases part with
        | nil => exact .inl rfl
        | cons first rest =>
            by_cases isPlus : first = '+'
            · exact .inr (by simp [isPlus])
            · exact .inl (by simp [isPlus])
    · cases found
  · rintro ⟨digits, isPart, read⟩
    refine ⟨component.toNat, ?_, ?_⟩
    · rcases isPart with rfl | rfl
      · have notPlus : part.head? ≠ some '+' := by
          rintro isPlus
          obtain ⟨rest, rfl⟩ := List.head?_eq_some_iff.mp isPlus
          cases read
        rw [if_neg notPlus, read]
      · exact read
    · have fits : component.toNat < componentLimit := component.toNat_lt
      rw [dif_pos fits]
      exact congrArg some (UInt32.toNat_inj.mp rfl)

theorem Writes.not_mem_dot {part : List Char} {component : UInt32}
    (writes : Writes part component) : '.' ∉ part := by
  obtain ⟨digits, isPart, read⟩ := writes
  have noDot : '.' ∉ digits := by
    intro membership
    have isDigit := Decimal.isSome_digit?_of_value? read '.' membership
    cases isDigit
  rcases isPart with rfl | rfl
  · exact noDot
  · rw [List.mem_cons, not_or]
    exact ⟨by decide, noDot⟩

theorem not_mem_dot_of_writes {parts : List (List Char)} {components : List UInt32}
    (each : List.Forall₂ Writes parts components) : ∀ part ∈ parts, '.' ∉ part := by
  induction each with
  | nil => nofun
  | cons first _ inductionHypothesis =>
      exact List.forall_mem_cons.mpr ⟨first.not_mem_dot, inductionHypothesis⟩

theorem mapM_component?_eq_some_iff {parts : List (List Char)} {components : List UInt32} :
    parts.mapM component? = some components ↔ List.Forall₂ Writes parts components := by
  induction parts generalizing components with
  | nil =>
      rw [List.mapM_nil, List.forall₂_nil_left_iff]
      exact Option.some_inj.trans eq_comm
  | cons part parts inductionHypothesis =>
      simp only [List.mapM_cons, Option.bind_eq_bind, Option.bind_eq_some_iff,
        List.forall₂_cons_left_iff, component?_eq_some_iff, inductionHypothesis]
      constructor
      · rintro ⟨component, writes, others, each, same⟩
        cases same
        exact ⟨component, others, writes, each, rfl⟩
      · rintro ⟨component, others, writes, each, rfl⟩
        exact ⟨component, writes, others, each, rfl⟩

theorem Encodable.ne_nil {components : List UInt32} (encodable : Encodable components) :
    components ≠ [] := by
  rintro rfl
  exact encodable

/-- Components are read from between the dots of a text exactly if the text has them. -/
theorem mapM_splitAtDots_eq_some_iff {text : String} {components : List UInt32}
    (nonempty : components ≠ []) :
    (splitAtDots text.toList).mapM component? = some components ↔ Dotted text components := by
  rw [mapM_component?_eq_some_iff, splitAtDots_eq]
  constructor
  · intro each
    exact ⟨_, (List.intercalate_splitOn '.').symm, each⟩
  · rintro ⟨parts, joined, each⟩
    have parts_ne_nil : parts ≠ [] := by
      rintro rfl
      cases each
      exact nonempty rfl
    rw [joined, List.splitOn_intercalate '.' (not_mem_dot_of_writes each) parts_ne_nil]
    exact each

theorem isSome_ofComponents?_iff {components : List UInt32} :
    (ofComponents? components).isSome = true ↔ Encodable components := by
  unfold ofComponents? Encodable
  split <;> simp

/-- The texts that are encoded are those that have encodable components. -/
theorem isSome_ofDotted?_iff {text : String} :
    (ofDotted? text).isSome = true ↔
      ∃ components, Dotted text components ∧ Encodable components := by
  simp only [ofDotted?, Option.isSome_iff_exists, Option.bind_eq_bind, Option.bind_eq_some_iff]
  constructor
  · rintro ⟨id, components, read, encoded⟩
    have encodable := isSome_ofComponents?_iff.mp (Option.isSome_of_eq_some encoded)
    exact ⟨components, (mapM_splitAtDots_eq_some_iff encodable.ne_nil).mp read, encodable⟩
  · rintro ⟨components, dotted, encodable⟩
    have read := (mapM_splitAtDots_eq_some_iff encodable.ne_nil).mpr dotted
    obtain ⟨id, encoded⟩ := Option.isSome_iff_exists.mp (isSome_ofComponents?_iff.mpr encodable)
    exact ⟨id, components, read, encoded⟩

end Asn1.ObjectId
