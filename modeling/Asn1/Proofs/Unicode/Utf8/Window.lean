import Asn1.Proofs.Unicode.Charset

/-!
# A window of four octets

The first character is read from the text in a window of four octets, up to where that is not
well-formed. What is found is the same as in all of the octets: no character is longer than the
window, so that neither its end nor what is wrong behind the character can be taken for a defect of
the character.
-/

namespace Asn1

namespace Utf8

/-- So many octets in front are well-formed, and no more are. -/
structure IsLongestValid (octets : Octets) (count : Nat) : Prop where
  le : count ≤ octets.length
  valid : ∃ text, octets.take count = ofString text
  longest : ∀ longer ≤ octets.length, (∃ text, octets.take longer = ofString text) → longer ≤ count

/-- Octets that are a part of the encoding of a character, from its start, but not all of it. -/
def IsCutOff (octets : Octets) : Prop :=
  ∃ char, octets <+: String.utf8EncodeChar char ∧ octets ≠ String.utf8EncodeChar char

/-- Behind the characters that are read stands the defect. -/
theorem exists_of_read_eq_some {octets : Octets} {defect : Defect}
    (broken : (read octets).2 = some defect) :
    ∃ leading rest, octets = encode (read octets).1 ++ leading :: rest ∧
      first leading rest = .error defect := by
  fun_induction read octets with
  | case1 => cases broken
  | case2 leading rest found isDefect =>
      cases broken
      exact ⟨leading, rest, rfl, isDefect⟩
  | case3 leading rest char isFirst later inductionHypothesis =>
      obtain ⟨more, split⟩ := prefix_of_first isFirst
      obtain ⟨brokenLeading, brokenRest, left, isDefect⟩ := inductionHypothesis broken
      rw [← split, drop_utf8Size] at left
      refine ⟨brokenLeading, brokenRest, ?_, isDefect⟩
      dsimp only [later]
      rw [encode_cons, List.append_assoc, ← split, drop_utf8Size, ← left]

theorem decode_eq_error {octets : Octets} {count : Nat} {defect : Defect}
    (failed : decode octets = .error (count, defect)) :
    ∃ chars leading rest, octets = encode chars ++ leading :: rest ∧
      (encode chars).length = count ∧ first leading rest = .error defect := by
  unfold decode at failed
  split at failed
  · cases failed
  next chars found isRead =>
    cases failed
    obtain ⟨leading, rest, split, isDefect⟩ :=
      exists_of_read_eq_some (congrArg Prod.snd isRead)
    rw [isRead] at split
    exact ⟨chars, leading, rest, split, rfl, isDefect⟩

/-- A failure reports how many octets in front are well-formed, and whether the octets behind them
end too early. -/
theorem decode_reports {octets : Octets} {count : Nat} {defect : Defect}
    (failed : decode octets = .error (count, defect)) :
    IsLongestValid octets count ∧ (defect = .truncated ↔ IsCutOff (octets.drop count)) := by
  obtain ⟨chars, leading, rest, rfl, rfl, isDefect⟩ := decode_eq_error failed
  constructor
  · refine ⟨by rw [List.length_append]; omega, ⟨String.ofList chars, ?_⟩, ?_⟩
    · rw [List.take_left, ofString, String.toList_ofList]
    · rintro longer - ⟨text, isText⟩
      refine Nat.not_lt.mp fun beyond => ?_
      obtain ⟨more, rfl⟩ := Nat.exists_eq_add_of_lt beyond
      rw [Nat.add_assoc, List.take_length_add_append, List.take_succ_cons] at isText
      obtain ⟨others, left⟩ := exists_of_encode_append isText
      cases others with
      | nil => cases left
      | cons char others =>
          have stands : String.utf8EncodeChar char <+: leading :: rest := by
            have front : leading :: rest.take more <+: leading :: rest :=
              List.cons_prefix_cons.mpr ⟨rfl, List.take_prefix _ _⟩
            rw [left, encode_cons] at front
            exact (List.prefix_append _ _).trans front
          rw [first_eq_ok_iff.mpr stands] at isDefect
          cases isDefect
  · rw [List.drop_left, IsCutOff, ← first_eq_truncated_iff, isDefect, Except.error.injEq]

end Utf8

namespace Charset

/-- The text at the start of octets, up to where they are not well-formed. -/
def textIn (octets : Octets) : Except TranscodeError String :=
  match Utf8.decode octets with
  | .ok text => .ok text
  | .error (count, defect) =>
      if 0 < count then
        match Utf8.decode (octets.take count) with
        | .ok text => .ok text
        | .error _ => .error .invalidSequence
      else
        match defect with
        | .malformed _ => .error .invalidSequence
        | .truncated => .error .incompleteSequence

/-- The first character of the text at the start of octets. -/
def firstIn (octets : Octets) : Except TranscodeError Sized :=
  match textIn octets with
  | .error error => .error error
  | .ok text =>
      match text.toList with
      | char :: _ => .ok ⟨char, char.utf8Size, char.utf8Size_pos⟩
      | [] => .error .incompleteSequence

variable {leading : UInt8} {rest : Octets}

theorem firstIn_eq_of_textIn {octets : Octets} {char : Char} {chars : List Char}
    (isText : textIn octets = .ok (String.ofList (char :: chars))) :
    firstIn octets = .ok ⟨char, char.utf8Size, char.utf8Size_pos⟩ := by
  rw [firstIn, isText]
  dsimp only
  rw [String.toList_ofList]

/-- The text starts with the character that stands first, and there is none if no character
does. -/
theorem textIn_cons (leading : UInt8) (rest : Octets) :
    (∃ char chars, Utf8.first leading rest = .ok char ∧
        textIn (leading :: rest) = .ok (String.ofList (char :: chars))) ∨
      Utf8.first leading rest = .error .truncated ∧
        textIn (leading :: rest) = .error .incompleteSequence ∨
      ∃ length, Utf8.first leading rest = .error (.malformed length) ∧
        textIn (leading :: rest) = .error .invalidSequence := by
  have first_of {char : Char} {more : Octets}
      (split : leading :: rest = String.utf8EncodeChar char ++ more) :
      Utf8.first leading rest = .ok char :=
    Utf8.first_eq_ok_iff.mpr ⟨more, split.symm⟩
  cases decoded : Utf8.decode (leading :: rest) with
  | ok text =>
      rw [Utf8.decode_eq_ok_iff, Utf8.ofString] at decoded
      rw [textIn, Utf8.decode_eq_ok_iff.mpr decoded]
      cases isList : text.toList with
      | nil =>
          rw [isList] at decoded
          cases decoded
      | cons char chars =>
          have isText : text = String.ofList (char :: chars) := by
            rw [← isList, String.ofList_toList]
          rw [isList] at decoded
          exact .inl ⟨char, chars, first_of decoded, congrArg Except.ok isText⟩
  | error reported =>
      obtain ⟨count, defect⟩ := reported
      obtain ⟨chars, brokenLeading, brokenRest, split, rfl, isDefect⟩ :=
        Utf8.decode_eq_error decoded
      rw [textIn, decoded]
      cases chars with
      | nil =>
          cases split
          cases defect with
          | truncated => exact .inr (.inl ⟨isDefect, rfl⟩)
          | malformed length => exact .inr (.inr ⟨length, isDefect, rfl⟩)
      | cons char chars =>
          have positive : 0 < (Utf8.encode (char :: chars)).length := by
            rw [Utf8.encode_cons, List.length_append, String.length_utf8EncodeChar]
            have := char.utf8Size_pos
            omega
          have again : Utf8.decode (Utf8.encode (char :: chars)) =
              .ok (String.ofList (char :: chars)) := by
            rw [Utf8.decode_eq_ok_iff, Utf8.ofString, String.toList_ofList]
          dsimp only
          rw [if_pos positive, split, List.take_left, again]
          rw [Utf8.encode_cons, List.append_assoc] at split
          exact .inl ⟨char, chars, first_of split, rfl⟩

/-- Text at the start of octets is never empty, so that it always has a first character. -/
theorem firstIn_eq_firstUtf8 (leading : UInt8) (rest : Octets) :
    firstIn (leading :: rest) = firstUtf8 (leading :: rest) := by
  rw [firstUtf8_cons]
  rcases textIn_cons leading rest with
    ⟨char, chars, found, isText⟩ | ⟨truncated, noText⟩ | ⟨length, malformed, noText⟩
  · rw [firstIn_eq_of_textIn isText, found]
  · rw [firstIn, noText, truncated]
  · rw [firstIn, noText, malformed]

theorem firstUtf8_take_four (leading : UInt8) (rest : Octets) :
    firstUtf8 ((leading :: rest).take 4) = firstUtf8 (leading :: rest) := by
  rw [List.take_succ_cons, firstUtf8_cons, firstUtf8_cons, Utf8.first_take]

theorem firstUtf8_eq_incomplete_iff :
    firstUtf8 (leading :: rest) = .error .incompleteSequence ↔
      Utf8.IsCutOff (leading :: rest) := by
  rw [Utf8.IsCutOff, ← Utf8.first_eq_truncated_iff, firstUtf8_cons]
  cases Utf8.first leading rest with
  | ok char => simp
  | error defect => cases defect <;> simp

theorem firstUtf8_eq_invalid_iff :
    firstUtf8 (leading :: rest) = .error .invalidSequence ↔
      (∀ char, ¬ String.utf8EncodeChar char <+: leading :: rest) ∧
        ¬ Utf8.IsCutOff (leading :: rest) := by
  simp only [Utf8.IsCutOff, ← Utf8.first_eq_truncated_iff, ← Utf8.first_eq_ok_iff, firstUtf8_cons]
  cases Utf8.first leading rest with
  | ok char => simp
  | error defect => cases defect <;> simp

/-- Reading the first character through a window of four octets comes to the same as reading it from
all octets. It is the one whose encoding stands first, whatever follows. If there is none, the input
is incomplete exactly if all of it is cut off within a character. The text in the window is never
empty, and the part of it that is found to be well-formed is so when it is looked at again. -/
theorem firstUtf8_exact (leading : UInt8) (rest : Octets) :
    let octets := leading :: rest
    (firstUtf8 octets = firstIn (octets.take 4) ∧ firstUtf8 octets = firstIn octets) ∧
      (∀ answer, firstUtf8 octets = .ok answer ↔
        String.utf8EncodeChar answer.char <+: octets ∧
          answer.size = (String.utf8EncodeChar answer.char).length) ∧
      (firstUtf8 octets = .error .incompleteSequence ↔ Utf8.IsCutOff octets) ∧
      (firstUtf8 octets = .error .invalidSequence ↔
        (∀ char, ¬ String.utf8EncodeChar char <+: octets) ∧ ¬ Utf8.IsCutOff octets) ∧
      textIn (octets.take 4) ≠ .ok "" ∧
      ∀ count defect, Utf8.decode (octets.take 4) = .error (count, defect) →
        ∃ text, Utf8.decode ((octets.take 4).take count) = .ok text := by
  intro octets
  refine ⟨⟨?_, (firstIn_eq_firstUtf8 leading rest).symm⟩, ?_, firstUtf8_eq_incomplete_iff,
    firstUtf8_eq_invalid_iff, ?_, ?_⟩
  · exact (firstUtf8_take_four leading rest).symm.trans
      (firstIn_eq_firstUtf8 leading (rest.take 3)).symm
  · intro answer
    rw [firstUtf8_eq_ok_iff, StandsFirst]
    simp only [encodeChar?, Option.some.injEq, exists_eq_left']
  · rcases textIn_cons leading (rest.take 3) with
      ⟨char, chars, -, isText⟩ | ⟨-, noText⟩ | ⟨length, -, noText⟩
    · rw [List.take_succ_cons, isText]
      intro same
      have empty := congrArg String.toList (Except.ok.inj same)
      rw [String.toList_ofList] at empty
      cases empty
    · simp [octets, noText]
    · simp [octets, noText]
  · intro count defect failed
    obtain ⟨text, isText⟩ := (Utf8.decode_reports failed).1.valid
    exact ⟨text, Utf8.decode_eq_ok_iff.mpr isText⟩

/-- A window that ends within the third character. Two octets of it are well-formed and give the
first character, as all octets do. -/
theorem firstUtf8_exact_cut_window :
    let octets : Octets := [0x61, 0x62, 0xe7, 0xb7, 0x91]
    Utf8.decode (octets.take 4) = .error (2, .truncated) ∧
      (∃ text, Utf8.decode ((octets.take 4).take 2) = .ok text) ∧
      (∃ answer, firstUtf8 octets = .ok answer ∧ answer.char = 'a') ∧
      firstIn (octets.take 4) = firstIn octets := by
  intro octets
  obtain ⟨⟨window, whole⟩, first_iff, -, -, -, reread⟩ :=
    firstUtf8_exact 0x61 [0x62, 0xe7, 0xb7, 0x91]
  have isRead : Utf8.read (octets.take 4) = (['a', 'b'], some .truncated) := by decide +kernel
  have failed : Utf8.decode (octets.take 4) = .error (2, .truncated) := by
    rw [Utf8.decode, isRead]
    rfl
  have stands : String.utf8EncodeChar 'a' <+: octets := by decide
  exact ⟨failed, reread 2 .truncated failed,
    ⟨_, (first_iff ⟨'a', 1, by decide⟩).mpr ⟨stands, rfl⟩, rfl⟩, window.symm.trans whole⟩

end Charset

end Asn1
