import Asn1.Parser
import Asn1.Proofs.Encoding
import Asn1.Proofs.Tag

/-!
# What the decoder reads

The scan of one item at a nesting level succeeds exactly on the encodings of that level, with the
value that is encoded and with the octets after the encoding left. The step from one level to the
level above is `reads_valueOrEnd`; a parser on fresh data follows from the outermost level.
-/

namespace Asn1

open Value

namespace Encoding

variable {mode : Mode} {options : TextOptions} {level : Nat} {item : ItemScan (Option Value)}

/-- The length octets of an end marker are like those of any empty content. -/
def IsEnding (mode : Mode) (ending : Octets) : Prop :=
  Length.Announces ending 0 ∧ (mode = .der → Length.Shortest ending 0)

/-- An item is exactly an encoding of a level or an end marker of that level. -/
structure Reads (mode : Mode) (options : TextOptions) (level : Nat) (scan : Scan (Option Value)) :
    Prop where
  value_iff : ∀ {all rest value}, scan all = .ok (some value) rest ↔
    ∃ encoding : Encoding, encoding.Follows mode options level ∧ encoding.value = value ∧
      all = encoding.octets ++ rest
  end_iff : ∀ {all rest}, scan all = .ok none rest ↔
    level ≤ Options.depthLimit ∧ ∃ ending, IsEnding mode ending ∧ all = 0x00 :: (ending ++ rest)

theorem Reads.run_octets {scan : Scan (Option Value)} (reads : Reads mode options level scan)
    {encoding : Encoding} (follows : encoding.Follows mode options level) (rest : Octets) :
    scan (encoding.octets ++ rest) = .ok (some encoding.value) rest :=
  reads.value_iff.mpr ⟨encoding, follows, rfl, rfl⟩

theorem octets_ne_nil (encoding : Encoding) : encoding.octets ≠ [] := by
  cases encoding <;> simp

theorem elements?_of_ok {content rest : Octets} {value : Value} (nonempty : content ≠ [])
    (outcome : item.run content = .ok (some value) rest) :
    elements? item content = (elements? item rest).map (value :: ·) := by
  rw [elements?, if_neg nonempty]
  split <;> simp_all

theorem elements?_of_error {content left : Octets} {error : DecodeError} (nonempty : content ≠ [])
    (outcome : item.run content = .error error left) : elements? item content = none := by
  rw [elements?, if_neg nonempty]
  split <;> simp_all

theorem ne_nil_of_elements? {content : Octets} {values : List Value} (nonempty : content ≠ [])
    (found : elements? item content = some values) : values ≠ [] := by
  rw [elements?, if_neg nonempty] at found
  split at found
  · rw [Option.map_eq_some_iff] at found
    obtain ⟨others, -, rfl⟩ := found
    exact List.cons_ne_nil _ _
  · cases found

/-- Content of definite length is a series of encodings that covers it. -/
theorem Reads.elements?_eq_some_iff (reads : Reads mode options level item.run) {content : Octets}
    {values : List Value} :
    elements? item content = some values ↔
      ∃ elements : List Encoding, (∀ element ∈ elements, element.Follows mode options level) ∧
        elements.map value = values ∧ content = elements.flatMap octets := by
  constructor
  · intro found
    fun_induction elements? item content generalizing values with
    | case1 =>
        cases found
        exact ⟨[], by simp, rfl, rfl⟩
    | case2 content nonempty value rest outcome inductionHypothesis =>
        rw [Option.map_eq_some_iff] at found
        obtain ⟨others, othersFound, rfl⟩ := found
        obtain ⟨elements, follow, rfl, rfl⟩ := inductionHypothesis othersFound
        obtain ⟨element, follows, rfl, rfl⟩ := reads.value_iff.mp outcome
        exact ⟨element :: elements, List.forall_mem_cons.mpr ⟨follows, follow⟩, rfl, rfl⟩
    | case3 => cases found
  · rintro ⟨elements, follow, rfl, rfl⟩
    induction elements with
    | nil => rw [elements?]; rfl
    | cons element elements inductionHypothesis =>
        rw [List.forall_mem_cons] at follow
        have outcome := reads.run_octets follow.1 (elements.flatMap octets)
        rw [List.flatMap_cons, elements?_of_ok (by simp [octets_ne_nil]) outcome,
          inductionHypothesis follow.2]
        rfl

theorem untilEnd_eq (item : ItemScan (Option Value)) :
    untilEnd item = (do
      let found ← item.run
      match found with
      | none => return []
      | some value => (value :: ·) <$> untilEnd item) := by
  funext all
  rw [untilEnd, Scan.bind_apply]
  cases item.run all with
  | error error rest => rfl
  | ok found rest =>
      cases found with
      | none => rfl
      | some value =>
          simp only
          rw [Scan.map_apply]
          cases untilEnd item rest <;> rfl

theorem progress_untilEnd (item : ItemScan (Option Value)) : Scan.Progress (untilEnd item) := by
  rw [untilEnd_eq]
  apply Scan.progress_bind item.progress
  intro found
  cases found with
  | none => exact Scan.forward_pure _
  | some value => exact Scan.forward_bind (forward_untilEnd item) fun _ => Scan.forward_pure _

theorem untilEnd_of_end {all rest : Octets} (outcome : item.run all = .ok none rest) :
    untilEnd item all = .ok [] rest := by
  rw [untilEnd_eq, Scan.bind_apply, outcome]
  rfl

theorem untilEnd_of_value {all between rest : Octets} {value : Value} {others : List Value}
    (outcome : item.run all = .ok (some value) between)
    (later : untilEnd item between = .ok others rest) :
    untilEnd item all = .ok (value :: others) rest := by
  rw [untilEnd_eq, Scan.bind_apply, outcome, Scan.map_eq_ok_iff]
  exact ⟨others, later, rfl⟩

/-- Content of indefinite length is a series of encodings and an end marker of the same level. -/
theorem Reads.untilEnd_eq_ok_iff (reads : Reads mode options level item.run)
    {all rest : Octets} {values : List Value} :
    untilEnd item all = .ok values rest ↔
      ∃ (elements : List Encoding) (ending : Octets),
        (∀ element ∈ elements, element.Follows mode options level) ∧
        level ≤ Options.depthLimit ∧ IsEnding mode ending ∧ elements.map value = values ∧
        all = elements.flatMap octets ++ 0x00 :: (ending ++ rest) := by
  constructor
  · intro found
    fun_induction untilEnd item all generalizing values with
    | case1 all left outcome =>
        cases found
        obtain ⟨within, ending, isEnding, rfl⟩ := reads.end_iff.mp outcome
        exact ⟨[], ending, by simp, within, isEnding, rfl, rfl⟩
    | case2 all value between outcome others left later inductionHypothesis =>
        cases found
        rcases inductionHypothesis later with
          ⟨elements, ending, follow, within, isEnding, rfl, rfl⟩
        obtain ⟨element, follows, rfl, rfl⟩ := reads.value_iff.mp outcome
        exact ⟨element :: elements, ending, List.forall_mem_cons.mpr ⟨follows, follow⟩, within,
          isEnding, rfl, by simp⟩
    | case3 => cases found
    | case4 => cases found
  · rintro ⟨elements, ending, follow, within, isEnding, rfl, rfl⟩
    induction elements with
    | nil => exact untilEnd_of_end (reads.end_iff.mpr ⟨within, ending, isEnding, rfl⟩)
    | cons element elements inductionHypothesis =>
        rw [List.forall_mem_cons] at follow
        rw [List.flatMap_cons, List.append_assoc]
        exact untilEnd_of_value (reads.run_octets follow.1 _) (inductionHypothesis follow.2)

theorem content_primitive_eq_ok_iff {tag : Tag} {count : Nat} {all rest : Octets} {value : Value} :
    Value.content mode options item ⟨tag, false⟩ (.definite count) all = .ok value rest ↔
      ∃ body : Octets, body.length = count ∧ all = body ++ rest ∧
        ofContent? mode options tag body = some value := by
  simp only [Value.content, Scan.bind_eq_ok_iff, Scan.octets_eq_ok_iff, Bool.false_eq_true,
    if_false, Scan.accept_eq_ok_iff]
  constructor
  · rintro ⟨body, between, ⟨rfl, width⟩, accepted, rfl⟩
    exact ⟨body, width, rfl, accepted⟩
  · rintro ⟨body, width, rfl, accepted⟩
    exact ⟨body, rest, ⟨rfl, width⟩, accepted, rfl⟩

theorem content_definite_eq_ok_iff {tag : Tag} {count : Nat} {all rest : Octets} {value : Value} :
    Value.content mode options item ⟨tag, true⟩ (.definite count) all = .ok value rest ↔
      ∃ body : Octets, body.length = count ∧ all = body ++ rest ∧
        mayBeConstructed mode tag = true ∧
        ∃ values, elements? item body = some values ∧
          ofElements? mode tag body values = some value := by
  simp only [Value.content, Scan.bind_eq_ok_iff, Scan.octets_eq_ok_iff, if_true]
  constructor
  · rintro ⟨body, between, ⟨rfl, width⟩, accepted⟩
    split at accepted
    · next allowed =>
        rw [Scan.accept_eq_ok_iff, Option.bind_eq_some_iff] at accepted
        obtain ⟨found, rfl⟩ := accepted
        exact ⟨body, width, rfl, allowed, found⟩
    · cases accepted
  · rintro ⟨body, width, rfl, allowed, found⟩
    refine ⟨body, rest, ⟨rfl, width⟩, ?_⟩
    rw [if_pos allowed, Scan.accept_eq_ok_iff, Option.bind_eq_some_iff]
    exact ⟨found, rfl⟩

theorem content_indefinite_eq_ok_iff {identifier : Identifier} {all rest : Octets}
    {value : Value} :
    Value.content mode options item identifier .indefinite all = .ok value rest ↔
      identifier.constructed = true ∧ mayBeConstructed mode identifier.tag = true ∧
        ∃ values, untilEnd item all = .ok values rest ∧
          ofElements? mode identifier.tag (all.take (all.length - rest.length)) values =
            some value := by
  simp only [Value.content]
  by_cases allowed : identifier.constructed = true ∧ mayBeConstructed mode identifier.tag = true
  · simp only [if_pos allowed, Scan.bind_eq_ok_iff, Prod.exists, Scan.spanned_eq_ok_iff,
      Scan.accept_eq_ok_iff]
    constructor
    · rintro ⟨values, body, between, ⟨found, rfl⟩, accepted, rfl⟩
      exact ⟨allowed.1, allowed.2, values, found, accepted⟩
    · rintro ⟨-, -, values, found, accepted⟩
      exact ⟨values, _, rest, ⟨found, rfl⟩, accepted, rfl⟩
  · rw [if_neg allowed]
    constructor
    · intro failed
      cases failed
    · rintro ⟨constructed, mayBe, -⟩
      exact absurd ⟨constructed, mayBe⟩ allowed

theorem isZero_eq_true_iff {length : Length} : length.isZero = true ↔ length = .definite 0 := by
  unfold Length.isZero
  split <;> simp_all

theorem valueOrEnd_eq_value_iff {all rest : Octets} {value : Value} :
    valueOrEnd mode options item all = .ok (some value) rest ↔
      ∃ (identifier : Identifier) (after : Octets) (length : Length) (between : Octets),
        all = identifier.octet :: after ∧ Length.scan mode after = .ok length between ∧
        identifier.tag ≠ .endOfContent ∧
        Value.content mode options item identifier length between = .ok value rest := by
  simp only [valueOrEnd, Scan.bind_eq_ok_iff, Identifier.scan_eq_ok_iff]
  constructor
  · rintro ⟨identifier, after, rfl, length, between, lengthFound, found⟩
    split at found
    · split at found <;> cases found
    · next notEnd =>
        rw [Scan.map_eq_ok_iff] at found
        obtain ⟨other, found, same⟩ := found
        cases same
        exact ⟨identifier, after, length, between, rfl, lengthFound, notEnd, found⟩
  · rintro ⟨identifier, after, length, between, rfl, lengthFound, notEnd, found⟩
    refine ⟨identifier, after, rfl, length, between, lengthFound, ?_⟩
    rw [if_neg notEnd, Scan.map_eq_ok_iff]
    exact ⟨value, found, rfl⟩

theorem valueOrEnd_eq_end_iff {all rest : Octets} :
    valueOrEnd mode options item all = .ok none rest ↔
      ∃ after, all = 0x00 :: after ∧ Length.scan mode after = .ok (.definite 0) rest := by
  simp only [valueOrEnd, Scan.bind_eq_ok_iff, Identifier.scan_eq_ok_iff]
  constructor
  · rintro ⟨identifier, after, rfl, length, between, lengthFound, found⟩
    split at found
    · next isEnd =>
        split at found
        · next empty =>
            cases found
            rw [isZero_eq_true_iff] at empty
            obtain ⟨primitive, rfl⟩ := empty
            obtain ⟨tag, constructed⟩ := identifier
            cases isEnd
            cases primitive
            exact ⟨after, rfl, lengthFound⟩
        · cases found
    · rw [Scan.map_eq_ok_iff] at found
      obtain ⟨value, -, different⟩ := found
      cases different
  · rintro ⟨after, rfl, lengthFound⟩
    refine ⟨⟨.endOfContent, false⟩, after, rfl, .definite 0, rest, lengthFound, ?_⟩
    rfl

theorem Reads.encoding_of_valueOrEnd (reads : Reads mode options (level + 1) item.run)
    (within : level ≤ Options.depthLimit) {all rest : Octets} {value : Value}
    (found : valueOrEnd mode options item all = .ok (some value) rest) :
    ∃ encoding : Encoding, encoding.Follows mode options level ∧ encoding.value = value ∧
      all = encoding.octets ++ rest := by
  rcases valueOrEnd_eq_value_iff.mp found with
    ⟨⟨tag, constructed⟩, after, length, between, rfl, lengthFound, notEnd, contentFound⟩
  cases length with
  | definite count =>
      rcases Length.scan_eq_definite_iff.mp lengthFound with
        ⟨lengthOctets, announces, shortest, rfl⟩
      cases constructed with
      | false =>
          obtain ⟨body, rfl, rfl, accepted⟩ := content_primitive_eq_ok_iff.mp contentFound
          obtain ⟨primitive, rfl, rfl⟩ := (ofContent?_eq_some_iff notEnd).mp accepted
          exact ⟨.primitive lengthOctets value,
            follows_primitive_iff.mpr ⟨within, announces, shortest, primitive⟩, by simp, by simp⟩
      | true =>
          rcases content_definite_eq_ok_iff.mp contentFound with
            ⟨body, rfl, rfl, allowed, values, elementsFound, accepted⟩
          obtain ⟨elements, follow, rfl, rfl⟩ := reads.elements?_eq_some_iff.mp elementsFound
          obtain ⟨ordered, rfl⟩ := ofElements?_eq_some_iff.mp accepted
          rw [map_body_map_value] at ordered
          exact ⟨.definite tag lengthOctets elements,
            follows_definite_iff.mpr ⟨within, announces, shortest, allowed, ordered, follow⟩,
            by simp, by simp⟩
  | indefinite =>
      obtain ⟨rfl, rfl⟩ := Length.scan_eq_indefinite_iff.mp lengthFound
      rcases content_indefinite_eq_ok_iff.mp contentFound with
        ⟨constructed, allowed, values, elementsFound, accepted⟩
      cases constructed
      rcases reads.untilEnd_eq_ok_iff.mp elementsFound with
        ⟨elements, ending, follow, deeperWithin, isEnding, rfl, rfl⟩
      obtain ⟨-, rfl⟩ := ofElements?_eq_some_iff.mp accepted
      refine ⟨.indefinite tag elements ending,
        follows_indefinite_iff.mpr ⟨rfl, deeperWithin, allowed, isEnding.1, follow⟩, ?_, by simp⟩
      rw [value_indefinite, Scan.take_used (elements.flatMap octets ++ 0x00 :: ending)]
      simp

theorem Reads.valueOrEnd_octets (reads : Reads mode options (level + 1) item.run)
    {encoding : Encoding} (follows : encoding.Follows mode options level) (rest : Octets) :
    valueOrEnd mode options item (encoding.octets ++ rest) = .ok (some encoding.value) rest := by
  rw [valueOrEnd_eq_value_iff]
  cases encoding with
  | primitive length value =>
      obtain ⟨within, announces, shortest, primitive⟩ := follows_primitive_iff.mp follows
      refine ⟨⟨value.tag, false⟩, _, .definite value.body.length, value.body ++ rest, by simp,
        Length.scan_of_announces announces shortest _, primitive.tag_ne_endOfContent, ?_⟩
      rw [content_primitive_eq_ok_iff]
      exact ⟨value.body, rfl, rfl, by simpa using ofContent?_of_isPrimitive primitive⟩
  | definite tag length elements =>
      rcases follows_definite_iff.mp follows with
        ⟨within, announces, shortest, allowed, ordered, follow⟩
      refine ⟨⟨tag, true⟩, _, .definite (elements.flatMap octets).length,
        elements.flatMap octets ++ rest, by simp, Length.scan_of_announces announces shortest _,
        ne_endOfContent_of_mayBeConstructed allowed, ?_⟩
      rw [content_definite_eq_ok_iff]
      refine ⟨_, rfl, rfl, allowed, elements.map Encoding.value,
        reads.elements?_eq_some_iff.mpr ⟨elements, follow, rfl, rfl⟩, ?_⟩
      rw [ofElements?_eq_some_iff, map_body_map_value]
      exact ⟨ordered, by simp⟩
  | indefinite tag elements ending =>
      rcases follows_indefinite_iff.mp follows with
        ⟨rfl, deeperWithin, allowed, announces, follow⟩
      refine ⟨⟨tag, true⟩, _, .indefinite, elements.flatMap octets ++ 0x00 :: (ending ++ rest),
        by simp, Length.scan_eq_indefinite_iff.mpr ⟨rfl, rfl⟩,
        ne_endOfContent_of_mayBeConstructed allowed, ?_⟩
      rw [content_indefinite_eq_ok_iff]
      refine ⟨rfl, allowed, elements.map Encoding.value, reads.untilEnd_eq_ok_iff.mpr
        ⟨elements, ending, follow, deeperWithin, ⟨announces, nofun⟩, rfl, rfl⟩, ?_⟩
      rw [ofElements?_eq_some_iff]
      refine ⟨nofun, ?_⟩
      rw [value_indefinite, Scan.take_used (elements.flatMap octets ++ 0x00 :: ending)]
      simp

/-- From a level that is read exactly, the level above is read exactly too. -/
theorem Reads.valueOrEnd (reads : Reads mode options (level + 1) item.run)
    (within : level ≤ Options.depthLimit) :
    Reads mode options level (valueOrEnd mode options item) where
  value_iff := by
    intro all rest value
    constructor
    · exact reads.encoding_of_valueOrEnd within
    · rintro ⟨encoding, follows, rfl, rfl⟩
      exact reads.valueOrEnd_octets follows rest
  end_iff := by
    intro all rest
    rw [valueOrEnd_eq_end_iff]
    constructor
    · rintro ⟨after, rfl, found⟩
      obtain ⟨ending, announces, shortest, rfl⟩ := Length.scan_eq_definite_iff.mp found
      exact ⟨within, ending, ⟨announces, shortest⟩, rfl⟩
    · rintro ⟨-, ending, isEnding, rfl⟩
      exact ⟨_, rfl, Length.scan_of_announces isEnding.1 isEnding.2 rest⟩

theorem tooDeep_ne_ok {all rest : Octets} {found : Option Value} :
    tooDeep all ≠ .ok found rest := by
  intro same
  rw [tooDeep, Scan.bind_eq_ok_iff] at same
  obtain ⟨identifier, between, -, failed⟩ := same
  cases failed

theorem Follows.level_le {encoding : Encoding} (follows : encoding.Follows mode options level) :
    level ≤ Options.depthLimit := by
  cases follows.1 <;> omega

/-- Each level is read exactly, where no encoding stands beyond the limit. -/
theorem reads_itemScan (mode : Mode) (options : TextOptions) (level : Nat) :
    Reads mode options level (itemScan mode options (Options.depthLimit + 1 - level)).run := by
  -- The induction is on the levels that are left, from the deepest one outwards.
  generalize remaining : Options.depthLimit + 1 - level = levels
  induction levels generalizing level with
  | zero =>
      refine ⟨⟨fun found => absurd found tooDeep_ne_ok, ?_⟩,
        ⟨fun found => absurd found tooDeep_ne_ok, ?_⟩⟩
      · rintro ⟨encoding, follows, -⟩
        have within := follows.level_le
        omega
      · rintro ⟨within, -⟩
        omega
  | succ levels inductionHypothesis =>
      have deeper := inductionHypothesis (level + 1) (by omega)
      exact deeper.valueOrEnd (by omega)

/-- The decoder takes exactly the encodings that follow the rules at its depth. -/
theorem scan_eq_ok_iff {options : Options} {all rest : Octets} {value : Value} :
    Value.scan options all = .ok value rest ↔
      ∃ encoding : Encoding,
        encoding.Follows options.mode options.toTextOptions options.depth ∧
        encoding.value = value ∧ all = encoding.octets ++ rest := by
  have reads := reads_itemScan options.mode options.toTextOptions options.depth
  rw [← reads.value_iff, Value.scan, Scan.bind_eq_ok_iff, Options.levels]
  constructor
  · rintro ⟨found, between, scanned, accepted⟩
    rw [Scan.accept_eq_ok_iff] at accepted
    rw [← accepted.1, ← accepted.2]
    exact scanned
  · intro scanned
    exact ⟨some value, rest, scanned, rfl⟩

theorem scan_octets {options : Options} {encoding : Encoding}
    (follows : encoding.Follows options.mode options.toTextOptions options.depth)
    (rest : Octets) : Value.scan options (encoding.octets ++ rest) = .ok encoding.value rest :=
  scan_eq_ok_iff.mpr ⟨encoding, follows, rfl, rfl⟩

end Encoding

end Asn1
