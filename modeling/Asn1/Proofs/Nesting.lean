import Asn1.Proofs.Comparison
import Asn1.Proofs.Encoding.Places
import Asn1.Proofs.Parser

/-!
# The nesting limit

An item is read if the decoder may go down as many levels as the item reaches. An end marker is an
item too, one level below the value it ends. Where there are elements they need that level as well,
so the limit is one on the height of values. Only a value of indefinite length without elements
needs a level that its height does not count.
-/

namespace Asn1

open Scan (Limited limited_of_ok limited_of_error)

namespace Value

/-- How many levels are read below a value. An end marker is read one level below the value it
ends. -/
def reach : Value → Nat
  | constructed _ body elements =>
      (elements.map fun element => element.reach + 1).foldr max (if body = [] then 0 else 1)
  | _ => 0

theorem reach_of_leaf {value : Value} (leaf : value.isConstructed = false) : value.reach = 0 := by
  cases value with
  | constructed => cases leaf
  | _ => rw [reach]; nofun

theorem add_reach_constructed_le_iff {level limit : Nat} {tag : Tag} {body : Octets}
    {elements : List Value} :
    level + (constructed tag body elements).reach ≤ limit ↔
      level ≤ limit ∧ (body ≠ [] → level < limit) ∧
        ∀ element ∈ elements, level + 1 + element.reach ≤ limit := by
  rw [reach]
  induction elements with
  | nil =>
      by_cases empty : body = []
      · simp [empty]
      · simp [empty]
        omega
  | cons element elements inductionHypothesis =>
      have first (deepest : Nat) : level + max (element.reach + 1) deepest ≤ limit ↔
          level + 1 + element.reach ≤ limit ∧ level + deepest ≤ limit := by omega
      rw [List.map_cons, List.foldr_cons, List.forall_mem_cons, first, inductionHypothesis,
        and_left_comm, and_left_comm (a := level + 1 + element.reach ≤ limit)]

theorem reach_constructed_le_iff {levels : Nat} {tag : Tag} {body : Octets}
    {elements : List Value} :
    (constructed tag body elements).reach ≤ levels ↔
      (body ≠ [] → 0 < levels) ∧ ∀ element ∈ elements, element.reach < levels := by
  have fromTop := @add_reach_constructed_le_iff 0 levels tag body elements
  simpa [Nat.add_comm 1, Nat.succ_le_iff] using fromTop

/-- The number of levels read for an item: none below an end marker. -/
def itemReach (found : Option Value) : Nat := found.elim 0 reach

/-- Where one scan finds an item, the other one does so too if it has enough levels. -/
def AgreesUpTo (levels : Nat) (item other : Scan (Option Value)) : Prop :=
  ∀ {all found rest}, item all = .ok found rest →
    Limited (itemReach found < levels) other all found rest

section Item

variable {mode : Mode} {options : TextOptions} {levels : Nat}
  {item other : ItemScan (Option Value)}

theorem AgreesUpTo.compares (agrees : AgreesUpTo levels item.run other.run) :
    Compares (fun found => itemReach found < levels) id item.run other.run := by
  intro all found rest scanned
  rw [Option.map_id]
  exact agrees scanned

theorem AgreesUpTo.elements?_eq (agrees : AgreesUpTo levels item.run other.run) {content : Octets}
    {values : List Value} (found : elements? item content = some values) :
    elements? other content =
      if ∀ value ∈ values, value.reach < levels then some values else none := by
  split
  · next each =>
      rw [agrees.compares.elements?_of_allowed found each, List.map_id]
  · next beyond => exact agrees.compares.elements?_of_not_allowed found beyond

theorem AgreesUpTo.limited_untilEnd (agrees : AgreesUpTo levels item.run other.run)
    {all rest : Octets} {values : List Value} (found : untilEnd item all = .ok values rest) :
    Limited (0 < levels ∧ ∀ value ∈ values, value.reach < levels) (untilEnd other) all values
      rest := by
  have limited := agrees.compares.limited_untilEnd found
  rwa [List.map_id] at limited

theorem reach_constructed_le_iff_of_elements? {tag : Tag} {body : Octets} {values : List Value}
    (found : elements? item body = some values) :
    (constructed tag body values).reach ≤ levels ↔ ∀ value ∈ values, value.reach < levels := by
  rw [reach_constructed_le_iff]
  constructor
  · exact fun reaches => reaches.2
  · intro reaches
    refine ⟨fun nonempty => ?_, reaches⟩
    have someValue := Encoding.ne_nil_of_elements? nonempty found
    obtain ⟨value, membership⟩ := List.exists_mem_of_ne_nil _ someValue
    exact Nat.zero_lt_of_lt (reaches value membership)

theorem reach_constructed_le_iff_of_untilEnd {tag : Tag} {all rest : Octets} {values : List Value}
    (found : untilEnd item all = .ok values rest) :
    (constructed tag (all.take (all.length - rest.length)) values).reach ≤ levels ↔
      0 < levels ∧ ∀ value ∈ values, value.reach < levels := by
  have used := Encoding.progress_untilEnd item all values rest found
  have nonempty : all.take (all.length - rest.length) ≠ [] := by
    apply List.ne_nil_of_length_pos
    rw [List.length_take]
    omega
  rw [reach_constructed_le_iff]
  exact and_congr_left' (imp_iff_right nonempty)

theorem AgreesUpTo.limited_content (agrees : AgreesUpTo levels item.run other.run)
    {identifier : Identifier} {length : Length} {all rest : Octets} {value : Value}
    (notEnd : identifier.tag ≠ .endOfContent)
    (found : content mode options item identifier length all = .ok value rest) :
    Limited (value.reach ≤ levels) (content mode options other identifier length) all value
      rest := by
  obtain ⟨tag, constructed⟩ := identifier
  cases length with
  | definite count =>
      cases constructed with
      | false =>
          rcases Encoding.content_primitive_eq_ok_iff.mp found with ⟨body, width, split, accepted⟩
          refine limited_of_ok ?_
            (Encoding.content_primitive_eq_ok_iff.mpr ⟨body, width, split, accepted⟩)
          rw [reach_of_leaf (isConstructed_eq_false_of_ofContent? notEnd accepted)]
          exact Nat.zero_le levels
      | true =>
          rcases Encoding.content_definite_eq_ok_iff.mp found with
            ⟨body, rfl, rfl, allowed, values, elementsFound, accepted⟩
          obtain ⟨-, rfl⟩ := ofElements?_eq_some_iff.mp accepted
          rw [content]
          apply Limited.after (Scan.octets_append body rest)
          rw [if_pos rfl, if_pos allowed, agrees.elements?_eq elementsFound]
          by_cases holds : ∀ value ∈ values, value.reach < levels
          · rw [if_pos holds, Option.bind_some, accepted]
            apply limited_of_ok ?_ rfl
            rwa [reach_constructed_le_iff_of_elements? elementsFound]
          · rw [if_neg holds]
            apply limited_of_error ?_ rfl
            rwa [reach_constructed_le_iff_of_elements? elementsFound]
  | indefinite =>
      rcases Encoding.content_indefinite_eq_ok_iff.mp found with
        ⟨rfl, allowed, values, elementsFound, accepted⟩
      rw [content, if_pos ⟨rfl, allowed⟩]
      refine Limited.congr
        (Limited.bind_ok (agrees.limited_untilEnd elementsFound).spanned ?_) ?_
      · rw [Scan.accept_eq_ok_iff]
        exact ⟨accepted, rfl⟩
      · obtain ⟨-, rfl⟩ := ofElements?_eq_some_iff.mp accepted
        exact (reach_constructed_le_iff_of_untilEnd elementsFound).symm

theorem agreesUpTo_valueOrEnd (agrees : AgreesUpTo levels item.run other.run) :
    AgreesUpTo (levels + 1) (valueOrEnd mode options item) (valueOrEnd mode options other) := by
  intro all found rest scanned
  cases found with
  | none =>
      have ended := Encoding.valueOrEnd_eq_end_iff.mp scanned
      exact limited_of_ok (Nat.succ_pos levels) (Encoding.valueOrEnd_eq_end_iff.mpr ended)
  | some value =>
      rcases Encoding.valueOrEnd_eq_value_iff.mp scanned with
        ⟨identifier, after, length, between, rfl, lengthFound, notEnd, contentFound⟩
      rw [valueOrEnd]
      apply Limited.after (Identifier.scan_eq_ok_iff.mpr rfl)
      apply Limited.after lengthFound
      rw [if_neg notEnd]
      exact ((agrees.limited_content notEnd contentFound).map some).congr Nat.lt_succ_iff.symm

theorem tooDeep_of_valueOrEnd {all rest : Octets} {found : Option Value}
    (scanned : valueOrEnd mode options item all = .ok found rest) :
    ∃ left, tooDeep all = .error .invalidFormat left := by
  rw [valueOrEnd, Scan.bind_eq_ok_iff] at scanned
  obtain ⟨identifier, between, identified, -⟩ := scanned
  exact ⟨between, by rw [tooDeep, Scan.bind_apply, identified]; rfl⟩

theorem agreesUpTo_itemScan (mode : Mode) (options : TextOptions) (levels others : Nat) :
    AgreesUpTo others (itemScan mode options levels).run (itemScan mode options others).run := by
  induction levels generalizing others with
  | zero =>
      intro all found rest scanned
      exact absurd scanned Encoding.tooDeep_ne_ok
  | succ levels inductionHypothesis =>
      cases others with
      | zero =>
          intro all found rest scanned
          obtain ⟨left, failed⟩ := tooDeep_of_valueOrEnd scanned
          exact limited_of_error (Nat.not_lt_zero _) failed
      | succ others => exact agreesUpTo_valueOrEnd (inductionHypothesis others)

end Item

/-- A constructed value has content but no elements: there is an end marker and nothing else. -/
def EndsAtOnce (value : Value) : Prop :=
  value.isConstructed = true ∧ value.elements = [] ∧ value.body ≠ []

theorem forall_mem_add_reach_le_iff {values : List Value} {depth limit : Nat}
    (each : ∀ value ∈ values, ∀ start, depth + value.reach ≤ limit ↔
      depth + value.height ≤ limit ∧
        ∀ place ∈ value.outline depth start, place.value.EndsAtOnce → place.depth < limit)
    (start : Nat) (content : Octets) :
    (∀ value ∈ values, depth + value.reach ≤ limit) ↔
      (∀ value ∈ values, depth + value.height ≤ limit) ∧
        ∀ place ∈ outlines depth start content values,
          place.value.EndsAtOnce → place.depth < limit := by
  induction values generalizing start content with
  | nil => simp [outlines]
  | cons value values inductionHypothesis =>
      rw [List.forall_mem_cons] at each
      rw [List.forall_mem_cons, List.forall_mem_cons, outlines, List.forall_mem_append,
        ← and_and_and_comm, ← each.1, ← inductionHypothesis each.2]

/-- Whether a limit covers all that is read for a value, in terms of its height and of the places
of those values that end at once. -/
theorem add_reach_le_iff (value : Value) (depth start limit : Nat) :
    depth + value.reach ≤ limit ↔
      depth + value.height ≤ limit ∧
        ∀ place ∈ value.outline depth start, place.value.EndsAtOnce → place.depth < limit := by
  induction value using Value.induction generalizing depth start with
  | leaf value leaf =>
      rw [reach_of_leaf leaf, height_of_leaf leaf, outline_of_leaf leaf]
      simp [EndsAtOnce, leaf]
  | constructed tag body elements inductionHypothesis =>
      have nested := forall_mem_add_reach_le_iff (fun element membership start =>
        inductionHypothesis element membership (depth + 1) start) start body
      rw [outline, List.forall_mem_cons, add_height_constructed_le_iff,
        add_reach_constructed_le_iff, nested, and_assoc]
      have endsAtOnce : (constructed tag body elements).EndsAtOnce ↔ elements = [] ∧ body ≠ [] := by
        simp [EndsAtOnce, isConstructed, Value.elements, Value.body]
      rw [endsAtOnce]
      -- Where there are elements, they need the level of the end marker themselves.
      have shared : (∀ element ∈ elements, depth + 1 + element.height ≤ limit) →
          elements ≠ [] → depth < limit := by
        intro fit nonempty
        obtain ⟨element, membership⟩ := List.exists_mem_of_ne_nil _ nonempty
        have deeper := fit element membership
        omega
      tauto

theorem exists_run_of_mem_elements? {item : ItemScan (Option Value)} {content : Octets}
    {values : List Value} (found : elements? item content = some values) {value : Value}
    (membership : value ∈ values) : ∃ all rest, item.run all = .ok (some value) rest := by
  fun_induction elements? item content generalizing values with
  | case1 =>
      cases found
      cases membership
  | case2 content nonempty first rest outcome inductionHypothesis =>
      rw [Option.map_eq_some_iff] at found
      obtain ⟨others, othersFound, rfl⟩ := found
      rcases List.mem_cons.mp membership with rfl | later
      · exact ⟨content, rest, outcome⟩
      · exact inductionHypothesis othersFound later
  | case3 => cases found

theorem not_endsAtOnce_of_valueOrEnd {options : TextOptions} {item : ItemScan (Option Value)}
    (each : ∀ {all rest value}, item.run all = .ok (some value) rest →
      ∀ node ∈ value.nodes, ¬ node.EndsAtOnce)
    {all rest : Octets} {value : Value}
    (scanned : valueOrEnd .der options item all = .ok (some value) rest) :
    ∀ node ∈ value.nodes, ¬ node.EndsAtOnce := by
  rcases Encoding.valueOrEnd_eq_value_iff.mp scanned with
    ⟨⟨tag, isConstructed⟩, after, length, between, -, lengthFound, notEnd, contentFound⟩
  cases length with
  | definite count =>
      cases isConstructed with
      | false =>
          obtain ⟨body, -, -, accepted⟩ := Encoding.content_primitive_eq_ok_iff.mp contentFound
          have leaf := isConstructed_eq_false_of_ofContent? notEnd accepted
          rw [nodes_of_leaf leaf]
          simp [EndsAtOnce, leaf]
      | true =>
          rcases Encoding.content_definite_eq_ok_iff.mp contentFound with
            ⟨body, -, -, -, values, elementsFound, accepted⟩
          obtain ⟨-, rfl⟩ := ofElements?_eq_some_iff.mp accepted
          rw [forall_mem_nodes_constructed_iff]
          constructor
          · rintro ⟨-, empty, nonempty⟩
            exact Encoding.ne_nil_of_elements? nonempty elementsFound empty
          · intro element membership
            obtain ⟨all, rest, run⟩ := exists_run_of_mem_elements? elementsFound membership
            exact each run
  | indefinite => cases (Length.scan_eq_indefinite_iff.mp lengthFound).1

theorem not_endsAtOnce_of_itemScan {options : TextOptions} {levels : Nat} {all rest : Octets}
    {value : Value} (scanned : (itemScan .der options levels).run all = .ok (some value) rest) :
    ∀ node ∈ value.nodes, ¬ node.EndsAtOnce := by
  induction levels generalizing all rest value with
  | zero => exact absurd scanned Encoding.tooDeep_ne_ok
  | succ levels inductionHypothesis =>
      exact not_endsAtOnce_of_valueOrEnd inductionHypothesis scanned

end Value

namespace Parser

/-- Without a limit data decodes to a value if some number of levels is enough for it. -/
def DecodesUnlimited (mode : Mode) (options : TextOptions) (data : Octets) (value : Value) : Prop :=
  ∃ levels, (Value.itemScan mode options levels).run data = .ok (some value) []

theorem decodesUnlimited_iff {mode : Mode} {options : TextOptions} {data : Octets}
    {value : Value} :
    DecodesUnlimited mode options data value ↔
      ∀ levels, value.reach < levels →
        (Value.itemScan mode options levels).run data = .ok (some value) [] := by
  constructor
  · rintro ⟨found, scanned⟩ levels enough
    exact (Value.agreesUpTo_itemScan mode options found levels scanned).1 enough
  · intro all
    exact ⟨value.reach + 1, all _ (Nat.lt_succ_self _)⟩

/-- No value is nested deeper than the limit, and none that ends at once stands at the limit. -/
def WithinLimit (depth : Nat) (value : Value) : Prop :=
  depth + value.height ≤ Options.depthLimit ∧
    ∀ place ∈ value.outline depth 0, place.value.EndsAtOnce → place.depth < Options.depthLimit

section Limit

variable {options : Options} {data : Octets} {value : Value}

theorem decodesUnlimited_of_decode (decoded : options.decode data = .ok value) :
    DecodesUnlimited options.mode options.toTextOptions data value := by
  obtain ⟨encoding, follows, rfl, rfl⟩ := decode_eq_ok_iff.mp decoded
  have reads := Encoding.reads_itemScan options.mode options.toTextOptions options.depth
  have scanned := reads.run_octets follows []
  rw [List.append_nil] at scanned
  exact ⟨_, scanned⟩

section Unlimited

variable (unlimited : DecodesUnlimited options.mode options.toTextOptions data value)

include unlimited

theorem DecodesUnlimited.limited_scan :
    Limited (WithinLimit options.depth value) (Value.scan options) data value [] := by
  obtain ⟨levels, scanned⟩ := unlimited
  have limited := Value.agreesUpTo_itemScan options.mode options.toTextOptions levels
    options.levels scanned
  have enough : value.reach < options.levels ↔ WithinLimit options.depth value := by
    rw [WithinLimit, ← value.add_reach_le_iff, Options.levels]
    omega
  refine Limited.congr (limited.bind_ok ?_) enough
  rfl

theorem DecodesUnlimited.decode_of_withinLimit (within : WithinLimit options.depth value) :
    options.decode data = .ok value := by
  rw [decode_of_ok (unlimited.limited_scan.1 within), if_pos rfl]

theorem DecodesUnlimited.decode_of_not_withinLimit (beyond : ¬ WithinLimit options.depth value) :
    options.decode data = .error .invalidFormat := by
  obtain ⟨left, failed⟩ := unlimited.limited_scan.2 beyond
  exact decode_of_error failed

theorem DecodesUnlimited.decode_iff :
    options.decode data = .ok value ↔ WithinLimit options.depth value := by
  constructor
  · intro decoded
    by_contra beyond
    rw [unlimited.decode_of_not_withinLimit beyond] at decoded
    cases decoded
  · exact unlimited.decode_of_withinLimit

end Unlimited

end Limit

/-- What is decoded is what could be decoded without a limit and is within it. The format of what is
beyond the limit is found broken. -/
theorem decode_eq_ok_iff_withinLimit (options : Options) (data : Octets) (value : Value) :
    (options.decode data = .ok value ↔
      DecodesUnlimited options.mode options.toTextOptions data value ∧
        WithinLimit options.depth value) ∧
    (DecodesUnlimited options.mode options.toTextOptions data value →
      ¬ WithinLimit options.depth value → options.decode data = .error .invalidFormat) := by
  refine ⟨⟨?_, ?_⟩, DecodesUnlimited.decode_of_not_withinLimit⟩
  · intro decoded
    have unlimited := decodesUnlimited_of_decode decoded
    exact ⟨unlimited, unlimited.decode_iff.mp decoded⟩
  · rintro ⟨unlimited, within⟩
    exact unlimited.decode_of_withinLimit within

/-- A sequence of an indefinite length without elements, one level before the limit. -/
theorem decode_end_marker_within_limit :
    ∃ value,
      Options.decode { mode := .ber, depth := 1023 } [0x30, 0x80, 0x00, 0x00] = .ok value ∧
      WithinLimit 1023 value := by
  have decoded : Options.decode { mode := .ber, depth := 1023 } [0x30, 0x80, 0x00, 0x00] =
      .ok (.constructed .sequence [0x00, 0x00] []) := by decide +kernel
  exact ⟨_, decoded, ((decode_eq_ok_iff_withinLimit _ _ _).1.mp decoded).2⟩

/-- The same sequence at the limit is not decoded, though it has no elements. With a definite length
it is. -/
theorem decode_end_marker_at_limit :
    ∃ value, DecodesUnlimited .ber {} [0x30, 0x80, 0x00, 0x00] value ∧
      1024 + value.height ≤ Options.depthLimit ∧
      Options.decode { mode := .ber, depth := 1024 } [0x30, 0x80, 0x00, 0x00] =
        .error .invalidFormat ∧
      Options.decode { mode := .ber, depth := 1024 } [0x30, 0x00] =
        .ok (.constructed .sequence [] []) := by
  have decoded : Options.decode { mode := .ber } [0x30, 0x80, 0x00, 0x00] =
      .ok (.constructed .sequence [0x00, 0x00] []) := by decide +kernel
  refine ⟨_, decodesUnlimited_of_decode decoded, ?_, ?_, ?_⟩
  · rw [Value.height]
    exact Nat.le_refl 1024
  · decide +kernel
  · decide +kernel

theorem withinLimit_iff_of_forall_mem_nodes {depth : Nat} {value : Value}
    (never : ∀ node ∈ value.nodes, ¬ node.EndsAtOnce) :
    WithinLimit depth value ↔ depth + value.height ≤ Options.depthLimit := by
  apply and_iff_left
  intro place membership endsAtOnce
  have node := List.mem_map_of_mem (f := Value.Place.value) membership
  rw [Value.map_value_outline] at node
  exact absurd endsAtOnce (never _ node)

/-- Distinguished rules have no end markers, so the limit is on the height and nothing else. -/
theorem decode_der_eq_ok_iff_height (options : TextOptions) (depth : Nat) (data : Octets)
    (value : Value) :
    Options.decode { toTextOptions := options, mode := .der, depth } data = .ok value ↔
      DecodesUnlimited .der options data value ∧ depth + value.height ≤ Options.depthLimit := by
  constructor
  · intro decoded
    have unlimited := decodesUnlimited_of_decode decoded
    exact ⟨unlimited, (unlimited.decode_iff.mp decoded).1⟩
  · rintro ⟨unlimited, within⟩
    have never : ∀ node ∈ value.nodes, ¬ node.EndsAtOnce := by
      obtain ⟨levels, scanned⟩ := unlimited
      exact Value.not_endsAtOnce_of_itemScan scanned
    have covered := (withinLimit_iff_of_forall_mem_nodes never).mpr within
    exact @DecodesUnlimited.decode_of_withinLimit
      { toTextOptions := options, mode := .der, depth } data value unlimited covered

end Parser

end Asn1
