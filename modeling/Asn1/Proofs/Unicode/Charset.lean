import Asn1.Proofs.Unicode.Utf8.Defect
import Asn1.Unicode.Charset

/-!
# Characters in their encodings

`encodeChar?` writes a character. Reading finds the character whose octets stand first and no other
one, and if there is none, it tells octets that end within a character from octets that are wrong.
-/

namespace Asn1

theorem scalar?_eq_some_iff {codePoint : Nat} {char : Char} :
    scalar? codePoint = some char ↔ char.toNat = codePoint := by
  unfold scalar?
  by_cases valid : codePoint.isValidChar
  · rw [dif_pos valid, Option.some.injEq, ← Char.toNat_inj, eq_comm]
    rfl
  · rw [dif_neg valid]
    apply iff_of_false nofun
    rintro rfl
    exact valid char.valid

namespace Charset

/-- The two octets of a number, the most significant one first. -/
def unit (number : Nat) : Octets :=
  [UInt8.ofNat (number / 256), UInt8.ofNat number]

/-- The octets that write a character in an encoding, if it has the character. -/
def encodeChar? (charset : Charset) (char : Char) : Option Octets :=
  match charset with
  | utf8 => some (String.utf8EncodeChar char)
  | latin1 => if char.toNat < 0x100 then some [UInt8.ofNat char.toNat] else none
  | utf16 =>
      if char.toNat < 0x10000 then
        some (unit char.toNat)
      else
        some (unit (0xd800 + (char.toNat - 0x10000) / 0x400) ++
          unit (0xdc00 + (char.toNat - 0x10000) % 0x400))
  | utf32 => some (unit (char.toNat / 0x10000) ++ unit (char.toNat % 0x10000))

/-- The octets end within a character. -/
inductive IsCutShort : Charset → Octets → Prop
  | utf8 {octets char} : octets <+: String.utf8EncodeChar char →
      octets ≠ String.utf8EncodeChar char → IsCutShort utf8 octets
  | unit (octet) : IsCutShort utf16 [octet]
  | surrogate {high low rest} : 0xd8 ≤ high.toNat → high.toNat < 0xdc → rest.length < 2 →
      IsCutShort utf16 (high :: low :: rest)
  | utf32 {octets} : octets.length < 4 → IsCutShort utf32 octets

theorem unit_eq (high low : UInt8) : unit (high.toNat * 256 + low.toNat) = [high, low] := by
  have bound := low.toNat_lt
  rw [unit, Utf8.ofNat_eq_of_toNat_eq high (by omega)]
  congr 2
  apply UInt8.toNat_inj.mp
  rw [UInt8.toNat_ofNat']
  omega

theorem exists_unit {number : Nat} (bound : number < 0x10000) :
    ∃ high low : UInt8, unit number = [high, low] ∧ high.toNat * 256 + low.toNat = number := by
  refine ⟨_, _, rfl, ?_⟩
  simp only [UInt8.toNat_ofNat']
  omega

theorem not_surrogate (char : Char) : ¬ (0xd800 ≤ char.toNat ∧ char.toNat < 0xe000) := by
  have valid : char.toNat < 0xd800 ∨ 0xdfff < char.toNat ∧ char.toNat < 0x110000 := char.valid
  omega

theorem toNat_lt (char : Char) : char.toNat < 0x110000 := by
  have valid : char.toNat < 0xd800 ∨ 0xdfff < char.toNat ∧ char.toNat < 0x110000 := char.valid
  omega

theorem toNat_ofNat_octet (octet : UInt8) : (Char.ofNat octet.toNat).toNat = octet.toNat :=
  Utf8.toNat_val_ofNat (.inl (Nat.lt_trans octet.toNat_lt (by decide)))

theorem sized_eq_ok_iff {size : Nat} {positive : 0 < size} {found : Option Char} {answer : Sized} :
    sized size positive found = .ok answer ↔ found = some answer.char ∧ answer.size = size := by
  cases found with
  | none => simp [sized]
  | some char =>
      obtain ⟨other, otherSize, _⟩ := answer
      simp [sized, eq_comm]

/-- The octets of a character stand first, and its size is their number. -/
def StandsFirst (charset : Charset) (octets : Octets) (answer : Sized) : Prop :=
  ∃ part, charset.encodeChar? answer.char = some part ∧ part <+: octets ∧
    answer.size = part.length

variable {charset : Charset} {octets : Octets} {answer : Sized}

theorem firstUtf8_cons (leading : UInt8) (rest : Octets) :
    firstUtf8 (leading :: rest) =
      match Utf8.first leading rest with
      | .ok char => .ok ⟨char, char.utf8Size, char.utf8Size_pos⟩
      | .error .truncated => .error .incompleteSequence
      | .error (.malformed _) => .error .invalidSequence := by
  rw [firstUtf8, List.take_succ_cons, Utf8.read, Utf8.first_take]
  cases Utf8.first leading rest with
  | ok char => rfl
  | error defect => cases defect <;> rfl

theorem firstUtf8_eq_ok_iff : firstUtf8 octets = .ok answer ↔ utf8.StandsFirst octets answer := by
  constructor
  · intro found
    cases octets with
    | nil => simp [firstUtf8] at found
    | cons leading rest =>
        rw [firstUtf8_cons] at found
        cases read : Utf8.first leading rest with
        | ok char =>
            rw [read] at found
            cases found
            exact ⟨_, rfl, Utf8.prefix_of_first read, (String.length_utf8EncodeChar char).symm⟩
        | error defect =>
            rw [read] at found
            cases defect <;> cases found
  · rintro ⟨part, encoded, stands, size⟩
    obtain ⟨char, width, _⟩ := answer
    cases encoded
    obtain ⟨leading, tail, encoded⟩ := Utf8.exists_of_utf8EncodeChar char
    obtain ⟨rest, rfl⟩ := stands
    rw [String.length_utf8EncodeChar] at size
    dsimp only at size
    subst size
    rw [encoded, List.cons_append, firstUtf8_cons, Utf8.first_of_utf8EncodeChar encoded]

theorem firstLatin1_eq_ok_iff :
    firstLatin1 octets = .ok answer ↔ latin1.StandsFirst octets answer := by
  constructor
  · intro found
    cases octets with
    | nil => cases found
    | cons octet rest =>
        cases found
        refine ⟨[octet], ?_, List.prefix_append [octet] rest, rfl⟩
        rw [encodeChar?, toNat_ofNat_octet, if_pos octet.toNat_lt, UInt8.ofNat_toNat]
  · rintro ⟨part, encoded, ⟨rest, rfl⟩, size⟩
    obtain ⟨char, width, _⟩ := answer
    rw [encodeChar?, Option.ite_none_right_eq_some] at encoded
    obtain ⟨bound, same⟩ := encoded
    cases same
    cases size
    have number : (UInt8.ofNat char.toNat).toNat = char.toNat := by
      rw [UInt8.toNat_ofNat', Nat.mod_eq_of_lt bound]
    rw [List.singleton_append, firstLatin1, number, Char.ofNat_toNat]

/-- In UTF-16 a character is one unit, or a high surrogate and a low one. -/
theorem encodeChar?_utf16_eq_some_iff {char : Char} {part : Octets} :
    utf16.encodeChar? char = some part ↔
      (∃ high low : UInt8, part = [high, low] ∧ char.toNat = high.toNat * 256 + low.toNat) ∨
      ∃ high low nextHigh nextLow : UInt8, part = [high, low, nextHigh, nextLow] ∧
        (0xd800 ≤ high.toNat * 256 + low.toNat ∧ high.toNat * 256 + low.toNat < 0xdc00) ∧
        (0xdc00 ≤ nextHigh.toNat * 256 + nextLow.toNat ∧
          nextHigh.toNat * 256 + nextLow.toNat < 0xe000) ∧
        char.toNat = 0x10000 + (high.toNat * 256 + low.toNat - 0xd800) * 0x400 +
          (nextHigh.toNat * 256 + nextLow.toNat - 0xdc00) := by
  have bound := toNat_lt char
  constructor
  · intro encoded
    rw [encodeChar?] at encoded
    split at encoded
    · next basic =>
        cases encoded
        obtain ⟨high, low, written, number⟩ := exists_unit basic
        exact .inl ⟨high, low, written, number.symm⟩
    · next supplementary =>
        cases encoded
        obtain ⟨high, low, written, number⟩ :=
          @exists_unit (0xd800 + (char.toNat - 0x10000) / 0x400) (by omega)
        obtain ⟨nextHigh, nextLow, nextWritten, nextNumber⟩ :=
          @exists_unit (0xdc00 + (char.toNat - 0x10000) % 0x400) (by omega)
        rw [written, nextWritten]
        exact .inr ⟨high, low, nextHigh, nextLow, rfl, by omega, by omega, by omega⟩
  · rintro (⟨high, low, rfl, number⟩ | ⟨high, low, nextHigh, nextLow, rfl, isHigh, isLow, number⟩)
    · have highBound := high.toNat_lt
      have lowBound := low.toNat_lt
      rw [encodeChar?, if_pos (by omega), number, unit_eq]
    · have first : 0xd800 + (char.toNat - 0x10000) / 0x400 =
          high.toNat * 256 + low.toNat := by omega
      have second : 0xdc00 + (char.toNat - 0x10000) % 0x400 =
          nextHigh.toNat * 256 + nextLow.toNat := by omega
      rw [encodeChar?, if_neg (by omega), first, second, unit_eq, unit_eq]
      rfl

theorem firstUtf16_eq_ok_iff :
    firstUtf16 octets = .ok answer ↔ utf16.StandsFirst octets answer := by
  simp only [StandsFirst, encodeChar?_utf16_eq_some_iff]
  constructor
  · intro found
    rw [firstUtf16.eq_def] at found
    split at found
    · next high low rest =>
        dsimp only at found
        split at found
        · next isHigh =>
            split at found
            · next nextHigh nextLow rest =>
                split at found
                · next isLow =>
                    rw [sized_eq_ok_iff, scalar?_eq_some_iff] at found
                    obtain ⟨number, size⟩ := found
                    exact ⟨_, .inr ⟨high, low, nextHigh, nextLow, rfl, isHigh, isLow, number⟩,
                      List.prefix_append _ rest, size⟩
                · cases found
            · cases found
        · rw [sized_eq_ok_iff, scalar?_eq_some_iff] at found
          obtain ⟨number, size⟩ := found
          exact ⟨_, .inl ⟨high, low, rfl, number⟩, List.prefix_append _ rest, size⟩
    · cases found
  · rintro ⟨part, encoded, ⟨rest, rfl⟩, size⟩
    rcases encoded with
      ⟨high, low, rfl, number⟩ | ⟨high, low, nextHigh, nextLow, rfl, isHigh, isLow, number⟩
    · have scalar := not_surrogate answer.char
      simp only [List.cons_append, firstUtf16]
      rw [if_neg (by omega), sized_eq_ok_iff, scalar?_eq_some_iff]
      exact ⟨number, size⟩
    · simp only [List.cons_append, List.nil_append, firstUtf16]
      rw [if_pos isHigh, if_pos isLow, sized_eq_ok_iff, scalar?_eq_some_iff]
      exact ⟨number, size⟩

theorem firstUtf32_eq_ok_iff :
    firstUtf32 octets = .ok answer ↔ utf32.StandsFirst octets answer := by
  constructor
  · intro found
    rw [firstUtf32.eq_def] at found
    split at found
    · next a b c d rest =>
        have bounds := And.intro b.toNat_lt (And.intro c.toNat_lt d.toNat_lt)
        rw [sized_eq_ok_iff, scalar?_eq_some_iff] at found
        obtain ⟨number, size⟩ := found
        simp only [Octets.toNat, List.foldl_cons, List.foldl_nil] at number
        have first : answer.char.toNat / 0x10000 = a.toNat * 256 + b.toNat := by omega
        have second : answer.char.toNat % 0x10000 = c.toNat * 256 + d.toNat := by omega
        refine ⟨[a, b] ++ [c, d], ?_, List.prefix_append [a, b, c, d] rest, size⟩
        rw [encodeChar?, first, second, unit_eq, unit_eq]
    · cases found
  · rintro ⟨part, encoded, ⟨rest, rfl⟩, size⟩
    have bound := toNat_lt answer.char
    cases encoded
    obtain ⟨a, b, written, number⟩ := @exists_unit (answer.char.toNat / 0x10000) (by omega)
    obtain ⟨c, d, nextWritten, nextNumber⟩ :=
      @exists_unit (answer.char.toNat % 0x10000) (by omega)
    rw [written, nextWritten] at size ⊢
    simp only [List.cons_append, List.nil_append, firstUtf32, sized_eq_ok_iff,
      scalar?_eq_some_iff, Octets.toNat, List.foldl_cons, List.foldl_nil]
    exact ⟨by omega, size⟩

/-- A character is read exactly where its octets stand first. -/
theorem first_eq_ok_iff :
    charset.first octets = .ok answer ↔ charset.StandsFirst octets answer := by
  cases charset with
  | utf8 => exact firstUtf8_eq_ok_iff
  | latin1 => exact firstLatin1_eq_ok_iff
  | utf16 => exact firstUtf16_eq_ok_iff
  | utf32 => exact firstUtf32_eq_ok_iff

theorem length_pos_of_encodeChar? {char : Char} {part : Octets}
    (encoded : charset.encodeChar? char = some part) : 0 < part.length := by
  cases charset with
  | utf8 =>
      cases encoded
      rw [String.length_utf8EncodeChar]
      exact char.utf8Size_pos
  | latin1 =>
      rw [encodeChar?, Option.ite_none_right_eq_some] at encoded
      cases encoded.2
      exact Nat.one_pos
  | utf16 =>
      rw [encodeChar?] at encoded
      split at encoded
      · cases encoded
        exact Nat.two_pos
      · cases encoded
        exact Nat.succ_pos _
  | utf32 =>
      cases encoded
      exact Nat.succ_pos _

theorem first_of_encodeChar? {char : Char} {part : Octets}
    (encoded : charset.encodeChar? char = some part) (stands : part <+: octets) :
    charset.first octets = .ok ⟨char, part.length, length_pos_of_encodeChar? encoded⟩ :=
  first_eq_ok_iff.mpr ⟨part, encoded, stands, rfl⟩

theorem encodeChar?_unique {char other : Char} {part otherPart : Octets}
    (encoded : charset.encodeChar? char = some part)
    (otherEncoded : charset.encodeChar? other = some otherPart) (stands : part <+: octets)
    (otherStands : otherPart <+: octets) : char = other ∧ part = otherPart := by
  have found := first_of_encodeChar? encoded stands
  rw [first_of_encodeChar? otherEncoded otherStands, Except.ok.injEq, Sized.mk.injEq] at found
  obtain ⟨rfl, -⟩ := found
  rw [encoded] at otherEncoded
  exact ⟨rfl, Option.some.inj otherEncoded⟩

theorem eq_invalidSequence_of_sized {size : Nat} {positive : 0 < size} {found : Option Char}
    {error : TranscodeError} (failed : sized size positive found = .error error) :
    error = .invalidSequence := by
  cases found with
  | none => exact (Except.error.inj failed).symm
  | some char => cases failed

theorem isCutShort_utf8_iff {leading : UInt8} {rest : Octets} :
    IsCutShort utf8 (leading :: rest) ↔ Utf8.first leading rest = .error .truncated := by
  rw [Utf8.first_eq_truncated_iff]
  constructor
  · intro cut
    cases cut with
    | utf8 stands proper => exact ⟨_, stands, proper⟩
  · rintro ⟨char, stands, proper⟩
    exact .utf8 stands proper

theorem isCutShort_utf16_iff {high low : UInt8} {rest : Octets} :
    IsCutShort utf16 (high :: low :: rest) ↔
      (0xd8 ≤ high.toNat ∧ high.toNat < 0xdc) ∧ rest.length < 2 := by
  constructor
  · intro cut
    cases cut with
    | surrogate lower upper short => exact ⟨⟨lower, upper⟩, short⟩
  · rintro ⟨⟨lower, upper⟩, short⟩
    exact .surrogate lower upper short

theorem isCutShort_utf32_iff : IsCutShort utf32 octets ↔ octets.length < 4 := by
  constructor
  · intro cut
    cases cut with
    | utf32 short => exact short
  · exact .utf32

/-- The error tells what is wrong with octets at which no character stands. -/
def Fails (charset : Charset) (octets : Octets) (error : TranscodeError) : Prop :=
  charset.IsCutShort octets ∧ error = .incompleteSequence ∨
    ¬ charset.IsCutShort octets ∧ error = .invalidSequence

theorem fails_of_firstUtf8 {leading : UInt8} {rest : Octets} {error : TranscodeError}
    (failed : firstUtf8 (leading :: rest) = .error error) :
    Fails utf8 (leading :: rest) error := by
  rw [Fails, isCutShort_utf8_iff]
  rw [firstUtf8_cons] at failed
  cases read : Utf8.first leading rest with
  | ok char =>
      rw [read] at failed
      cases failed
  | error defect =>
      rw [read] at failed
      cases defect with
      | truncated => exact .inl ⟨rfl, (Except.error.inj failed).symm⟩
      | malformed length => exact .inr ⟨nofun, (Except.error.inj failed).symm⟩

theorem fails_of_firstUtf16 {error : TranscodeError} (nonempty : octets ≠ [])
    (failed : firstUtf16 octets = .error error) : Fails utf16 octets error := by
  match octets with
  | [] => exact absurd rfl nonempty
  | [octet] => exact .inl ⟨.unit octet, (Except.error.inj failed).symm⟩
  | high :: low :: rest =>
      have highBound := high.toNat_lt
      have lowBound := low.toNat_lt
      rw [Fails, isCutShort_utf16_iff]
      rw [firstUtf16.eq_def] at failed
      dsimp only at failed
      split at failed
      · next surrogate =>
          match rest with
          | [] => exact .inl ⟨⟨by omega, by decide⟩, (Except.error.inj failed).symm⟩
          | [_] => exact .inl ⟨⟨by omega, by simp⟩, (Except.error.inj failed).symm⟩
          | nextHigh :: nextLow :: rest =>
              refine .inr ⟨by simp, ?_⟩
              dsimp only at failed
              split at failed
              · exact eq_invalidSequence_of_sized failed
              · exact (Except.error.inj failed).symm
      · next notSurrogate => exact .inr ⟨by omega, eq_invalidSequence_of_sized failed⟩

theorem fails_of_firstUtf32 {error : TranscodeError} (failed : firstUtf32 octets = .error error) :
    Fails utf32 octets error := by
  rw [Fails, isCutShort_utf32_iff]
  match octets with
  | [] | [_] | [_, _] | [_, _, _] => exact .inl ⟨by simp, (Except.error.inj failed).symm⟩
  | _ :: _ :: _ :: _ :: _ => exact .inr ⟨by simp, eq_invalidSequence_of_sized failed⟩

theorem fails_of_first {error : TranscodeError} (nonempty : octets ≠ [])
    (failed : charset.first octets = .error error) : charset.Fails octets error := by
  cases charset with
  | utf8 =>
      obtain ⟨leading, rest, rfl⟩ := List.exists_cons_of_ne_nil nonempty
      exact fails_of_firstUtf8 failed
  | latin1 =>
      obtain ⟨octet, rest, rfl⟩ := List.exists_cons_of_ne_nil nonempty
      cases failed
  | utf16 => exact fails_of_firstUtf16 nonempty failed
  | utf32 => exact fails_of_firstUtf32 failed

/-- The octets write the characters in an encoding. -/
inductive Encodes (charset : Charset) : List Char → Octets → Prop
  | nil : Encodes charset [] []
  | cons {char chars part rest} : charset.encodeChar? char = some part →
      Encodes charset chars rest → Encodes charset (char :: chars) (part ++ rest)

theorem encodes_utf8_iff {chars : List Char} :
    Encodes utf8 chars octets ↔ octets = Utf8.encode chars := by
  constructor
  · intro encodes
    induction encodes with
    | nil => rfl
    | cons encoded encodes inductionHypothesis =>
        cases encoded
        rw [inductionHypothesis, Utf8.encode_cons]
  · rintro rfl
    induction chars with
    | nil => exact .nil
    | cons char chars inductionHypothesis => exact .cons rfl inductionHypothesis

theorem Encodes.append {front back : List Char} {frontOctets backOctets : Octets}
    (frontEncodes : charset.Encodes front frontOctets)
    (backEncodes : charset.Encodes back backOctets) :
    charset.Encodes (front ++ back) (frontOctets ++ backOctets) := by
  induction frontEncodes with
  | nil => exact backEncodes
  | cons encoded encodes inductionHypothesis =>
      rw [List.cons_append, List.append_assoc]
      exact .cons encoded inductionHypothesis

/-- No characters that stand in front go beyond the place where no character stands. -/
theorem Encodes.prefix_of_stops {chars others : List Char} {taken front left : Octets}
    (encodes : charset.Encodes chars taken)
    (stops : ∀ char part, charset.encodeChar? char = some part → ¬ part <+: left)
    (othersEncode : charset.Encodes others front) (stand : front <+: taken ++ left) :
    others <+: chars := by
  induction othersEncode generalizing chars taken with
  | nil => exact List.nil_prefix
  | @cons char others part rest encoded _ inductionHypothesis =>
      have stands : part <+: taken ++ left := (List.prefix_append part rest).trans stand
      cases encodes with
      | nil => exact absurd stands (stops char part encoded)
      | @cons first chars firstPart taken firstEncoded encodes =>
          rw [List.append_assoc] at stand stands
          obtain ⟨rfl, rfl⟩ :=
            encodeChar?_unique encoded firstEncoded stands (List.prefix_append _ _)
          rw [List.prefix_append_right_inj] at stand
          rw [List.cons_prefix_cons]
          exact ⟨rfl, inductionHypothesis encodes stand⟩

end Charset

end Asn1
