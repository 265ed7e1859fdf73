import Asn1.Proofs.Parser

/-!
# More data

Only a failure for lack of octets can be cured by octets that follow. Any other answer is stable:
a scan gives it again on longer data and stops at the same place. Each way to build a scan keeps
this, so that it holds at all levels of values.
-/

namespace Asn1

namespace Scan

variable {α β : Type}

/-- How an answer relates to that on data continued by a suffix. -/
inductive Continues (suffix : Octets) :
    EStateM.Result DecodeError Octets α → EStateM.Result DecodeError Octets α → Prop
  | ok (result : α) (rest : Octets) :
      Continues suffix (.ok result rest) (.ok result (rest ++ suffix))
  | invalidFormat (rest : Octets) :
      Continues suffix (.error .invalidFormat rest) (.error .invalidFormat (rest ++ suffix))
  | outOfBounds (rest : Octets) (answer : EStateM.Result DecodeError Octets α) :
      Continues suffix (.error .outOfBounds rest) answer

/-- All answers but a lack of octets stay the same when more octets follow. -/
def Stable (scan : Scan α) : Prop :=
  ∀ data suffix, Continues suffix (scan data) (scan (data ++ suffix))

theorem stable_pure (value : α) : Stable (pure value : Scan α) :=
  fun data _ => .ok value data

theorem stable_throw_invalidFormat : Stable (throw .invalidFormat : Scan α) :=
  fun data _ => .invalidFormat data

theorem stable_accept (found : Option α) : Stable (accept found) := by
  cases found with
  | none => exact stable_throw_invalidFormat
  | some value => exact stable_pure value

theorem stable_octet : Stable octet := by
  intro data suffix
  cases data with
  | nil => exact .outOfBounds [] _
  | cons first rest => exact .ok first rest

theorem stable_octets (count : Nat) : Stable (octets count) := by
  intro data suffix
  cases taken : octets count data with
  | ok content rest =>
      obtain ⟨rfl, width⟩ := octets_eq_ok_iff.mp taken
      have longer : octets count (content ++ rest ++ suffix) = .ok content (rest ++ suffix) :=
        octets_eq_ok_iff.mpr ⟨List.append_assoc .., width⟩
      rw [longer]
      exact .ok content rest
  | error error rest =>
      simp only [octets] at taken
      split at taken
      · cases taken
      · cases taken
        exact .outOfBounds data _

theorem Continues.bind {scan : Scan α} {next : α → Scan β} {suffix data longer : Octets}
    (first : Continues suffix (scan data) (scan longer))
    (later : ∀ result rest, scan data = .ok result rest →
      Continues suffix (next result rest) (next result (rest ++ suffix))) :
    Continues suffix ((scan >>= next) data) ((scan >>= next) longer) := by
  rw [bind_apply, bind_apply]
  generalize scan data = answer at first later ⊢
  generalize scan longer = longerAnswer at first ⊢
  cases first with
  | ok result rest => exact later result rest rfl
  | invalidFormat rest => exact .invalidFormat rest
  | outOfBounds rest => exact .outOfBounds rest _

theorem stable_bind {scan : Scan α} {next : α → Scan β} (first : Stable scan)
    (later : ∀ result, Stable (next result)) : Stable (scan >>= next) :=
  fun data suffix => (first data suffix).bind fun result rest _ => later result rest suffix

theorem Continues.map {scan : Scan α} (function : α → β) {suffix data longer : Octets}
    (continues : Continues suffix (scan data) (scan longer)) :
    Continues suffix ((function <$> scan) data) ((function <$> scan) longer) := by
  rw [← bind_pure_comp]
  exact continues.bind fun value rest _ => .ok (function value) rest

theorem stable_map {scan : Scan α} (function : α → β) (stable : Stable scan) :
    Stable (function <$> scan) :=
  fun data suffix => (stable data suffix).map function

theorem take_append_used (data rest suffix : Octets) :
    (data ++ suffix).take ((data ++ suffix).length - (rest ++ suffix).length) =
      data.take (data.length - rest.length) := by
  rw [List.length_append, List.length_append, Nat.add_sub_add_right,
    List.take_append_of_le_length (Nat.sub_le _ _)]

theorem stable_spanned {scan : Scan α} (stable : Stable scan) : Stable (spanned scan) := by
  intro data suffix
  have continues := stable data suffix
  simp only [spanned]
  generalize scan data = answer at continues ⊢
  generalize scan (data ++ suffix) = longerAnswer at continues ⊢
  cases continues with
  | ok result rest =>
      simp only [take_append_used]
      exact .ok _ rest
  | invalidFormat rest => exact .invalidFormat rest
  | outOfBounds rest =>
      cases longerAnswer <;> exact .outOfBounds rest _

theorem Stable.invalidFormat_or_outOfBounds {scan : Scan α} (stable : Stable scan)
    {data rest : Octets} {error : DecodeError} (failed : scan data = .error error rest) :
    error = .invalidFormat ∨ error = .outOfBounds := by
  have continues := stable data []
  generalize scan (data ++ []) = answer at continues
  rw [failed] at continues
  cases continues with
  | invalidFormat => exact .inl rfl
  | outOfBounds => exact .inr rfl

end Scan

theorem Identifier.stable_scan : Scan.Stable Identifier.scan :=
  Scan.stable_bind Scan.stable_octet fun _ => Scan.stable_accept _

theorem Length.stable_scan (mode : Mode) : Scan.Stable (Length.scan mode) := by
  apply Scan.stable_bind Scan.stable_octet
  intro first
  split
  · exact Scan.stable_throw_invalidFormat
  split
  · exact Scan.stable_pure _
  split
  · split
    · exact Scan.stable_throw_invalidFormat
    · exact Scan.stable_pure _
  split
  · exact Scan.stable_throw_invalidFormat
  apply Scan.stable_bind (Scan.stable_octets _)
  intro written
  simp only
  split
  · exact Scan.stable_throw_invalidFormat
  · exact Scan.stable_pure _

namespace Value

variable {item : ItemScan (Option Value)}

theorem stable_untilEnd (stable : Scan.Stable item.run) : Scan.Stable (untilEnd item) := by
  intro data suffix
  -- The induction is on the octets that are left, as in the scan itself.
  induction remaining : data.length using Nat.strong_induction_on generalizing data with
  | _ count inductionHypothesis =>
      rw [Encoding.untilEnd_eq]
      apply (stable data suffix).bind
      intro found rest scanned
      cases found with
      | none => exact .ok [] rest
      | some value =>
          have shorter : rest.length < count := remaining ▸ item.progress _ _ _ scanned
          exact (inductionHypothesis rest.length shorter rest rfl).map (value :: ·)

theorem stable_content (mode : Mode) (options : TextOptions) (stable : Scan.Stable item.run)
    (identifier : Identifier) (length : Length) :
    Scan.Stable (content mode options item identifier length) := by
  cases length with
  | definite count =>
      -- Nested content is looked at when it is there as a whole.
      apply Scan.stable_bind (Scan.stable_octets count)
      intro body
      split
      · split
        · exact Scan.stable_accept _
        · exact Scan.stable_throw_invalidFormat
      · exact Scan.stable_accept _
  | indefinite =>
      simp only [content]
      split
      · exact Scan.stable_bind (Scan.stable_spanned (stable_untilEnd stable))
          fun _ => Scan.stable_accept _
      · exact Scan.stable_throw_invalidFormat

theorem stable_valueOrEnd (mode : Mode) (options : TextOptions) (stable : Scan.Stable item.run) :
    Scan.Stable (valueOrEnd mode options item) := by
  apply Scan.stable_bind Identifier.stable_scan
  intro identifier
  apply Scan.stable_bind (Length.stable_scan mode)
  intro length
  split
  · split
    · exact Scan.stable_pure _
    · exact Scan.stable_throw_invalidFormat
  · exact Scan.stable_map _ (stable_content mode options stable identifier length)

theorem stable_itemScan (mode : Mode) (options : TextOptions) (levels : Nat) :
    Scan.Stable (itemScan mode options levels).run := by
  induction levels with
  | zero => exact Scan.stable_bind Identifier.stable_scan fun _ => Scan.stable_throw_invalidFormat
  | succ levels inductionHypothesis => exact stable_valueOrEnd mode options inductionHypothesis

theorem stable_scan (options : Options) : Scan.Stable (scan options) :=
  Scan.stable_bind (stable_itemScan _ _ _) fun _ => Scan.stable_accept _

end Value

namespace Parser

variable {options : Options} {data : Octets}

theorem parse_new_append (enough : (new data options).parse.result ≠ .error .outOfBounds)
    (suffix : Octets) :
    (new (data ++ suffix) options).parse.result = (new data options).parse.result ∧
      (new (data ++ suffix) options).parse.parser.reader.pos =
        (new data options).parse.parser.reader.pos := by
  have continues := Value.stable_scan options data suffix
  rw [pos_parse_new, pos_parse_new]
  generalize longerScanned : Value.scan options (data ++ suffix) = longerAnswer at continues ⊢
  generalize scanned : Value.scan options data = answer at continues ⊢
  cases continues with
  | ok value rest =>
      rw [(parse_new_of_ok scanned).1, (parse_new_of_ok longerScanned).1]
      simp [Scan.left, Nat.add_sub_add_right]
  | invalidFormat rest =>
      rw [(parse_new_of_error scanned).1, (parse_new_of_error longerScanned).1]
      simp [Scan.left, Nat.add_sub_add_right]
  | outOfBounds rest => exact absurd (parse_new_of_error scanned).1 enough

theorem eq_invalidFormat_of_parse_new {error : DecodeError}
    (failed : (new data options).parse.result = .error error)
    (enough : error ≠ .outOfBounds) : error = .invalidFormat := by
  cases scanned : Value.scan options data with
  | ok value rest =>
      rw [(parse_new_of_ok scanned).1] at failed
      cases failed
  | error found rest =>
      rw [(parse_new_of_error scanned).1, Except.error.injEq] at failed
      subst failed
      exact ((Value.stable_scan options).invalidFormat_or_outOfBounds scanned).resolve_right enough

theorem parse_new_of_take_prefix {value : Value} {other : Octets}
    (succeeded : (new data options).parse.result = .ok value)
    (sameStart : data.take (new data options).parse.parser.reader.pos <+: other) :
    (new other options).parse.result = .ok value ∧
      (new other options).parse.parser.reader.pos =
        (new data options).parse.parser.reader.pos := by
  rcases parse_new_eq_ok_iff.mp ⟨succeeded, rfl⟩ with
    ⟨encoding, follows, starts, sameValue, length⟩
  rw [← length, ← List.prefix_iff_eq_take.mp starts] at sameStart
  exact parse_new_eq_ok_iff.mpr ⟨encoding, follows, sameStart, sameValue, length⟩

theorem parse_new_take_of_lt {count : Nat}
    (short : count < (new data options).parse.parser.reader.pos) :
    (new (data.take count) options).parse.result = .error .outOfBounds := by
  by_cases lacking : (new (data.take count) options).parse.result = .error .outOfBounds
  · exact lacking
  · have samePlace := (parse_new_append lacking (data.drop count)).2
    rw [List.take_append_drop] at samePlace
    have width : (data.take count).length ≤ count := List.length_take_le count data
    rw [samePlace, pos_parse_new] at short
    omega

/-- Only a lack of octets can be cured by more data. Any other answer to fresh data stays the same,
and at the same place, when octets follow. So a success depends on the octets that were used up
only. If some of the octets that an answer has used up are missing, the answer is a lack of
octets. -/
theorem parse_new_stable (options : Options) (data : Octets) :
    ((new data options).parse.result ≠ .error .outOfBounds →
      (∀ error, (new data options).parse.result = .error error → error = .invalidFormat) ∧
      ∀ suffix : Octets,
        (new (data ++ suffix) options).parse.result = (new data options).parse.result ∧
        (new (data ++ suffix) options).parse.parser.reader.pos =
          (new data options).parse.parser.reader.pos) ∧
    (∀ value, (new data options).parse.result = .ok value →
      ∀ other : Octets, data.take (new data options).parse.parser.reader.pos <+: other →
        (new other options).parse.result = .ok value ∧
        (new other options).parse.parser.reader.pos =
          (new data options).parse.parser.reader.pos) ∧
    ∀ count < (new data options).parse.parser.reader.pos,
      (new (data.take count) options).parse.result = .error .outOfBounds := by
  refine ⟨fun enough => ⟨fun error failed => ?_, parse_new_append enough⟩, ?_, ?_⟩
  · refine eq_invalidFormat_of_parse_new failed ?_
    rintro rfl
    exact enough failed
  · exact fun value succeeded other => parse_new_of_take_prefix succeeded
  · exact fun count => parse_new_take_of_lt

/-- A null in a sequence of indefinite length is read in the same way with octets behind it, and
not at all if it is cut. -/
theorem parse_new_indefinite_sequence :
    ∃ value : Value,
      (∀ suffix : Octets,
        (new ([0x30, 0x80, 0x05, 0x00, 0x00, 0x00] ++ suffix) { mode := .ber }).parse.result =
          .ok value) ∧
      (new [0x30, 0x80, 0x05, 0x00, 0x00, 0x00, 0x2a] { mode := .ber }).parse.parser.reader.pos =
        6 ∧
      (new [0x30, 0x80, 0x05, 0x00, 0x00] { mode := .ber }).parse.result =
        .error .outOfBounds := by
  obtain ⟨encoding, ber, written⟩ : ∃ encoding : Encoding,
      encoding.IsBer {} 0 ∧ encoding.octets = [0x30, 0x80, 0x05, 0x00, 0x00, 0x00] := by
    have nullBer : (Encoding.primitive [0x00] (.generic .null [])).IsBer {} 1 :=
      .primitive (by decide) (.short 0x00 (by decide)) ⟨by decide, fun _ => rfl⟩
    refine ⟨.indefinite .sequence [.primitive [0x00] (.generic .null [])] [0x00], ?_, ?_⟩
    · exact .indefinite (by decide) (.inr (by decide)) (by simpa using nullBer)
        (.short 0x00 (by decide))
    · rw [Encoding.octets_indefinite, List.flatMap_cons, Encoding.octets_primitive]
      rfl
  have answer : (new [0x30, 0x80, 0x05, 0x00, 0x00, 0x00] { mode := .ber }).parse.result =
        .ok encoding.value ∧
      (new [0x30, 0x80, 0x05, 0x00, 0x00, 0x00] { mode := .ber }).parse.parser.reader.pos = 6 :=
    parse_new_eq_ok_iff.mpr ⟨encoding, Encoding.follows_ber_iff.mpr ber,
      written ▸ List.prefix_refl _, rfl, written ▸ rfl⟩
  have stable := parse_new_stable { mode := .ber } [0x30, 0x80, 0x05, 0x00, 0x00, 0x00]
  have enough : (new [0x30, 0x80, 0x05, 0x00, 0x00, 0x00] { mode := .ber }).parse.result ≠
      .error .outOfBounds := by
    rw [answer.1]
    nofun
  refine ⟨encoding.value, fun suffix => ?_, ?_, ?_⟩
  · rw [((stable.1 enough).2 suffix).1, answer.1]
  · have follow : ([0x30, 0x80, 0x05, 0x00, 0x00, 0x00] : Octets).take 6 <+:
        [0x30, 0x80, 0x05, 0x00, 0x00, 0x00, 0x2a] := by decide
    rw [← answer.2] at follow
    rw [(stable.2.1 _ answer.1 _ follow).2, answer.2]
  · exact stable.2.2 5 (by rw [answer.2]; decide)

end Parser

end Asn1
