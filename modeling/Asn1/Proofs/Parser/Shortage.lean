import Asn1.Proofs.Length.Reading
import Asn1.Proofs.Parser.Calls

/-!
# Lack of octets

Where a definite length is announced, octets are only lacking if the length or the content is not
there as a whole. All that can be wrong within the content is a broken format, also octets that lack
there: no nested value can get them from behind the content.
-/

namespace Asn1

namespace Value

variable {mode : Mode} {options : TextOptions} {item : ItemScan (Option Value)}

/-- Behind the identifier of a value stand its length and its content. -/
theorem scan_cons {options : Options} {identifier : Identifier}
    (within : options.depth ≤ Options.depthLimit) (notEnd : identifier.tag ≠ .endOfContent)
    (after : Octets) :
    scan options (identifier.octet :: after) =
      (Length.scan options.mode >>= content options.mode options.toTextOptions
        (itemScan options.mode options.toTextOptions options.deeper.levels) identifier) after := by
  have levels : options.levels = options.deeper.levels + 1 := by
    rw [Options.levels_deeper, Options.levels]
    omega
  have identified := Identifier.scan_eq_ok_iff.mpr (Eq.refl (identifier.octet :: after))
  rw [scan, levels, itemScan, Scan.bind_apply]
  dsimp only
  rw [valueOrEnd, Scan.bind_apply, identified]
  dsimp only
  rw [Scan.bind_apply, Scan.bind_apply]
  cases Length.scan options.mode after with
  | error error left => rfl
  | ok length between =>
      dsimp only
      rw [if_neg notEnd, Scan.map_apply]
      cases content options.mode options.toTextOptions
          (itemScan options.mode options.toTextOptions options.deeper.levels) identifier length
          between with
      | error error left => rfl
      | ok value rest => rfl

theorem content_of_lacking {identifier : Identifier} {count : Nat} {between : Octets}
    (lacking : between.length < count) :
    content mode options item identifier (.definite count) between =
      .error .outOfBounds between := by
  rw [content, Scan.bind_apply, Scan.octets_of_length_lt lacking]

/-- Content that is there makes a value, or its format is broken. -/
theorem content_of_complete (identifier : Identifier) (body rest : Octets) :
    (∃ value, content mode options item identifier (.definite body.length) (body ++ rest) =
        .ok value rest) ∨
      content mode options item identifier (.definite body.length) (body ++ rest) =
        .error .invalidFormat rest := by
  have accepted (found : Option Value) : (∃ value, Scan.accept found rest = .ok value rest) ∨
      Scan.accept found rest = .error .invalidFormat rest := by
    cases found with
    | none => exact .inr rfl
    | some value => exact .inl ⟨value, rfl⟩
  rw [content, Scan.bind_apply, Scan.octets_append]
  dsimp only
  split
  · split
    · exact accepted _
    · exact .inr rfl
  · exact accepted _

theorem elements?_eq_none {broken : Octets} (nonempty : broken ≠ [])
    (unread : ∀ value rest, item.run broken ≠ .ok (some value) rest) :
    elements? item broken = none := by
  rw [elements?, if_neg nonempty]
  split
  next value rest outcome => exact absurd outcome (unread value rest)
  next => rfl

end Value

namespace Encoding

open Value

/-- Encodings in front of content are its first elements, whatever stands behind them. -/
theorem Reads.elements?_append {mode : Mode} {options : TextOptions} {level : Nat}
    {item : ItemScan (Option Value)} (reads : Reads mode options level item.run)
    {elements : List Encoding} (follow : ∀ element ∈ elements, element.Follows mode options level)
    (rest : Octets) :
    elements? item (elements.flatMap octets ++ rest) =
      (elements? item rest).map (elements.map value ++ ·) := by
  induction elements with
  | nil => simp
  | cons element elements inductionHypothesis =>
      rw [List.forall_mem_cons] at follow
      have outcome := reads.run_octets follow.1 (elements.flatMap octets ++ rest)
      rw [List.flatMap_cons, List.append_assoc,
        elements?_of_ok (by simp [octets_ne_nil]) outcome, inductionHypothesis follow.2,
        Option.map_map]
      rfl

end Encoding

namespace Parser

variable {options : Options} {identifier : Identifier} {after : Octets}

/-- A definite length is announced, as far as its octets are there. -/
def AnnouncesDefinite (mode : Mode) (after : Octets) : Prop :=
  Length.Incomplete after ∨
    ∃ count announced, Length.Accepts mode (.definite count) announced ∧ announced <+: after

/-- What stands behind an identifier ends before the length does, or before the content does that it
announces. -/
inductive Lacks (mode : Mode) : Octets → Prop
  | length {octets} : Length.Incomplete octets → Lacks mode octets
  | content {count announced between} : Length.Accepts mode (.definite count) announced →
      between.length < count → Lacks mode (announced ++ between)

theorem scan_of_lacks (within : options.depth ≤ Options.depthLimit)
    (notEnd : identifier.tag ≠ .endOfContent) (lacks : Lacks options.mode after) :
    ∃ left, Value.scan options (identifier.octet :: after) = .error .outOfBounds left := by
  rw [Value.scan_cons within notEnd, Scan.bind_apply]
  cases lacks with
  | length incomplete =>
      obtain ⟨left, failed⟩ := Length.scan_of_incomplete incomplete options.mode
      rw [failed]
      exact ⟨left, rfl⟩
  | content accepts lacking =>
      rw [Length.scan_eq_ok_iff.mpr ⟨_, accepts, rfl⟩]
      exact ⟨_, Value.content_of_lacking lacking⟩

/-- The header and the content are there as a whole. -/
theorem exists_split_of_not_lacks {mode : Mode} (definite : AnnouncesDefinite mode after)
    (enough : ¬ Lacks mode after) :
    ∃ announced body rest : Octets, Length.Accepts mode (.definite body.length) announced ∧
      after = announced ++ (body ++ rest) := by
  rcases definite with incomplete | ⟨count, announced, accepts, between, rfl⟩
  · exact absurd (.length incomplete) enough
  · have complete : count ≤ between.length := by
      by_contra lacking
      exact enough (.content accepts (Nat.not_le.mp lacking))
    refine ⟨announced, between.take count, between.drop count, ?_, ?_⟩
    · rwa [List.length_take_of_le complete]
    · rw [List.take_append_drop]

theorem scan_of_complete (within : options.depth ≤ Options.depthLimit)
    (notEnd : identifier.tag ≠ .endOfContent) {announced body : Octets}
    (accepts : Length.Accepts options.mode (.definite body.length) announced) (rest : Octets) :
    (∃ value, Value.scan options (identifier.octet :: (announced ++ (body ++ rest))) =
        .ok value rest) ∨
      Value.scan options (identifier.octet :: (announced ++ (body ++ rest))) =
        .error .invalidFormat rest := by
  rw [Value.scan_cons within notEnd, Scan.bind_apply, Length.scan_eq_ok_iff.mpr ⟨_, accepts, rfl⟩]
  exact Value.content_of_complete identifier body rest

theorem parse_new_eq_outOfBounds_iff (within : options.depth ≤ Options.depthLimit)
    (notEnd : identifier.tag ≠ .endOfContent) (definite : AnnouncesDefinite options.mode after) :
    (new (identifier.octet :: after) options).parse.result = .error .outOfBounds ↔
      Lacks options.mode after := by
  constructor
  · intro failed
    by_contra enough
    obtain ⟨announced, body, rest, accepts, rfl⟩ := exists_split_of_not_lacks definite enough
    rcases scan_of_complete within notEnd accepts rest with ⟨value, scanned⟩ | scanned
    · cases failed.symm.trans (parse_new_of_ok scanned).1
    · cases failed.symm.trans (parse_new_of_error scanned).1
  · intro lacks
    obtain ⟨left, scanned⟩ := scan_of_lacks within notEnd lacks
    exact (parse_new_of_error scanned).1

theorem parse_new_eq_invalidFormat_iff (within : options.depth ≤ Options.depthLimit)
    (notEnd : identifier.tag ≠ .endOfContent) (definite : AnnouncesDefinite options.mode after)
    (enough : ¬ Lacks options.mode after) :
    (new (identifier.octet :: after) options).parse.result = .error .invalidFormat ↔
      ¬ ∃ encoding : Encoding,
        encoding.Follows options.mode options.toTextOptions options.depth ∧
        encoding.octets <+: identifier.octet :: after := by
  have encoded (encoding : Encoding)
      (follows : encoding.Follows options.mode options.toTextOptions options.depth)
      (starts : encoding.octets <+: identifier.octet :: after) :=
    (parse_new_eq_ok_iff.mpr ⟨encoding, follows, starts, rfl, rfl⟩).1
  constructor
  · rintro failed ⟨encoding, follows, starts⟩
    cases failed.symm.trans (encoded encoding follows starts)
  · intro unencoded
    obtain ⟨announced, body, rest, accepts, rfl⟩ := exists_split_of_not_lacks definite enough
    rcases scan_of_complete within notEnd accepts rest with ⟨value, scanned⟩ | scanned
    · rcases parse_new_eq_ok_iff.mp ⟨(parse_new_of_ok scanned).1, rfl⟩ with
        ⟨encoding, follows, starts, -⟩
      exact absurd ⟨encoding, follows, starts⟩ unencoded
    · exact (parse_new_of_error scanned).1

theorem elements?_of_parse_new_error {elements : List Encoding} {broken : Octets}
    {error : DecodeError} (nonempty : broken ≠ [])
    (follow : ∀ element ∈ elements,
      element.Follows options.mode options.toTextOptions options.deeper.depth)
    (failed : (new broken options.deeper).parse.result = .error error) :
    Value.elements? (Value.itemScan options.mode options.toTextOptions options.deeper.levels)
      (elements.flatMap Encoding.octets ++ broken) = none := by
  have reads := Encoding.reads_itemScan options.mode options.toTextOptions options.deeper.depth
  have unread : Value.elements?
      (Value.itemScan options.mode options.toTextOptions options.deeper.levels) broken = none := by
    refine Value.elements?_eq_none nonempty fun value rest outcome => ?_
    have scanned : Value.scan options.deeper broken = .ok value rest :=
      Scan.bind_eq_ok_iff.mpr ⟨some value, rest, outcome, rfl⟩
    cases failed.symm.trans (parse_new_of_ok scanned).1
  rw [← Options.levels] at reads
  rw [reads.elements?_append follow, unread, Option.map_none]

/-- Whatever the failure of a nested value is, the value around it has a broken format. -/
theorem parse_new_of_nested_error {tag : Tag} {elements : List Encoding} {error : DecodeError}
    {announced broken : Octets} (within : options.depth ≤ Options.depthLimit)
    (notEnd : tag ≠ .endOfContent)
    (accepts : Length.Accepts options.mode
      (.definite (elements.flatMap Encoding.octets ++ broken).length) announced)
    (follow : ∀ element ∈ elements,
      element.Follows options.mode options.toTextOptions options.deeper.depth)
    (nonempty : broken ≠ [])
    (failed : (new broken options.deeper).parse.result = .error error) (rest : Octets) :
    (new ((Identifier.mk tag true).octet ::
        (announced ++ (elements.flatMap Encoding.octets ++ broken ++ rest))) options).parse.result =
      .error .invalidFormat := by
  have scanned : Value.scan options ((Identifier.mk tag true).octet ::
      (announced ++ (elements.flatMap Encoding.octets ++ broken ++ rest))) =
        .error .invalidFormat rest := by
    rw [Value.scan_cons within notEnd, Scan.bind_apply,
      Length.scan_eq_ok_iff.mpr ⟨_, accepts, rfl⟩]
    dsimp only
    rw [Value.content, Scan.bind_apply, Scan.octets_append]
    dsimp only
    rw [if_pos rfl, elements?_of_parse_new_error nonempty follow failed]
    split
    · rfl
    · rfl
  exact (parse_new_of_error scanned).1

theorem parse_after_ne_unconsumedData (data : Octets) (options : Options) (calls : List Call) :
    ((new data options).after calls).parse.result ≠ .error .unconsumedData := by
  have inUse := (inUse_new options data).after calls
  generalize (new data options).after calls = parser at inUse ⊢
  have outcome := outcome_answer parser .parse
  change Outcome parser .parse parser.parse at outcome
  generalize parser.parse = answer at outcome ⊢
  cases outcome with
  | value => nofun
  | rejected _ _ fatal => exact fun same => fatal (Except.error.inj same)
  | unusable invalid =>
      obtain ⟨error, fatal, recorded⟩ := inUse.failure_of_invalid invalid
      rw [recorded]
      exact fun same => fatal (Except.error.inj same)

/-- Where a definite length is announced, a parser on fresh data finds that octets are lacking
exactly if the length or the content is not there as a whole. Data with all of the content is a
value that follows the rules, or its format is broken. That is so too if a nested value fails for
lack of octets. That octets are left over is no failure of `parse`, however often a parser is
used. -/
theorem parse_new_of_announcesDefinite (options : Options) :
    (∀ (identifier : Identifier) (after : Octets), options.depth ≤ Options.depthLimit →
      identifier.tag ≠ .endOfContent → AnnouncesDefinite options.mode after →
        ((new (identifier.octet :: after) options).parse.result = .error .outOfBounds ↔
          Lacks options.mode after) ∧
        (¬ Lacks options.mode after →
          ((new (identifier.octet :: after) options).parse.result = .error .invalidFormat ↔
            ¬ ∃ encoding : Encoding,
              encoding.Follows options.mode options.toTextOptions options.depth ∧
              encoding.octets <+: identifier.octet :: after))) ∧
    (∀ (tag : Tag) (announced broken rest : Octets) (elements : List Encoding)
        (error : DecodeError), options.depth ≤ Options.depthLimit → tag ≠ .endOfContent →
      Length.Accepts options.mode
        (.definite (elements.flatMap Encoding.octets ++ broken).length) announced →
      (∀ element ∈ elements,
        element.Follows options.mode options.toTextOptions options.deeper.depth) →
      broken ≠ [] → (new broken options.deeper).parse.result = .error error →
        (new ((Identifier.mk tag true).octet ::
            (announced ++ (elements.flatMap Encoding.octets ++ broken ++ rest)))
          options).parse.result = .error .invalidFormat) ∧
    ∀ (data : Octets) (calls : List Call),
      ((new data options).after calls).parse.result ≠ .error .unconsumedData :=
  ⟨fun _ _ within notEnd definite => ⟨parse_new_eq_outOfBounds_iff within notEnd definite,
      parse_new_eq_invalidFormat_iff within notEnd definite⟩,
    fun _ _ _ rest _ _ within notEnd accepts follow nonempty failed =>
      parse_new_of_nested_error within notEnd accepts follow nonempty failed rest,
    fun data calls => parse_after_ne_unconsumedData data options calls⟩

/-- A sequence is not there as a whole, or the one in it has no end marker. -/
theorem parse_new_unfinished_sequence :
    (new [0x30, 0x06, 0x05, 0x00, 0x30, 0x80, 0x05] { mode := .ber }).parse.result =
        .error .outOfBounds ∧
      (new [0x30, 0x80, 0x05, 0x00] { mode := .ber, depth := 1 }).parse.result =
        .error .outOfBounds ∧
      (new [0x30, 0x06, 0x05, 0x00, 0x30, 0x80, 0x05, 0x00] { mode := .ber }).parse.result =
        .error .invalidFormat := by
  obtain ⟨announced, nested, -⟩ := parse_new_of_announcesDefinite { mode := .ber }
  have accepts : Length.Accepts .ber (.definite 6) [0x06] :=
    .definite (.short 0x06 (by decide)) nofun
  have lacks : Lacks .ber ([0x06] ++ [0x05, 0x00, 0x30, 0x80, 0x05]) := .content accepts (by decide)
  have definite : AnnouncesDefinite .ber ([0x06] ++ [0x05, 0x00, 0x30, 0x80, 0x05]) :=
    .inr ⟨6, [0x06], accepts, List.prefix_append _ _⟩
  have unfinished : (new [0x30, 0x80, 0x05, 0x00] { mode := .ber, depth := 1 }).parse.result =
      .error .outOfBounds := by
    decide +kernel
  have null : (Encoding.primitive [0x00] (.generic .null [])).Follows .ber {} 1 :=
    Encoding.follows_ber_iff.mpr
      (.primitive (by decide) (.short 0x00 (by decide)) ⟨by decide, fun _ => rfl⟩)
  have written : [Encoding.primitive [0x00] (.generic .null [])].flatMap Encoding.octets =
      [0x05, 0x00] := by
    rw [List.flatMap_cons, Encoding.octets_primitive]
    rfl
  have broken := nested .sequence [0x06] [0x30, 0x80, 0x05, 0x00] []
    [.primitive [0x00] (.generic .null [])] .outOfBounds (by decide) (by decide)
    (by rw [written]; exact accepts) (List.forall_mem_singleton.mpr null) (by decide) unfinished
  rw [written] at broken
  exact ⟨((announced ⟨.sequence, true⟩ _ (by decide) (by decide) definite).1).mpr lacks, unfinished,
    broken⟩

end Parser

end Asn1
