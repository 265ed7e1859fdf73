import Asn1.Proofs.Unicode.Charset
import Asn1.Unicode.Transcoder

/-!
# What a conversion takes and writes

A conversion takes characters from the front of the input and writes them in UTF-8, and there is a
reason why it takes no more. Without a limit it takes all that can be read. Characters that have
been taken make no difference to what happens behind them.
-/

namespace Asn1

namespace Transcoder

/-- Characters from the front of the input have been written in UTF-8, and the rest is left. -/
def Takes (source : Charset) (input left produced : Octets) : Prop :=
  ∃ chars taken, source.Encodes chars taken ∧ input = taken ++ left ∧ produced = Utf8.encode chars

/-- A conversion as it is behind what has already been written. -/
def Conversion.behind (produced : Octets) (conversion : Conversion) : Conversion :=
  { conversion with produced := produced ++ conversion.produced }

/-- Why a conversion takes no more: nothing is left, no character stands first, or the first one
does not fit into the room that is left. -/
inductive Stops (source : Charset) (room : Option Nat) : Octets → Option TranscodeError → Prop
  | finished : Stops source room [] none
  | failed {left error} : left ≠ [] → source.first left = .error error →
      Stops source room left (some error)
  | full {char part rest limit} : source.encodeChar? char = some part → room = some limit →
      limit < char.utf8Size → Stops source room (part ++ rest) (some .outputFull)

/-- What a conversion comes to. -/
structure Converts (source : Charset) (room : Option Nat) (input : Octets)
    (conversion : Conversion) : Prop where
  takes : Takes source input conversion.left conversion.produced
  fits : ∀ limit, room = some limit → conversion.produced.length ≤ limit
  stops : Stops source (room.map (· - conversion.produced.length)) conversion.left
    conversion.error?

variable {source : Charset} {room : Option Nat} {input left produced : Octets}
  {error : TranscodeError} {chars : List Char}

theorem Takes.nothing (source : Charset) (input : Octets) : Takes source input input [] :=
  ⟨[], [], .nil, rfl, rfl⟩

theorem Takes.trans {rest further : Octets} (takes : Takes source input left produced)
    (takesMore : Takes source left rest further) :
    Takes source input rest (produced ++ further) := by
  obtain ⟨chars, taken, encodes, rfl, rfl⟩ := takes
  obtain ⟨others, takenToo, othersEncode, rfl, rfl⟩ := takesMore
  exact ⟨chars ++ others, taken ++ takenToo, encodes.append othersEncode,
    (List.append_assoc ..).symm, (Utf8.encode_append ..).symm⟩

theorem takes_of_encodeChar? {char : Char} {part : Octets}
    (encoded : source.encodeChar? char = some part) (rest : Octets) :
    Takes source (part ++ rest) rest (String.utf8EncodeChar char) := by
  refine ⟨[char], part ++ [], .cons encoded .nil, ?_, ?_⟩
  · rw [List.append_nil]
  · rw [Utf8.encode_cons, Utf8.encode_nil, List.append_nil]

theorem converts_fill (source : Charset) (room : Option Nat) (input : Octets) :
    Converts source room input (fill ⟨source⟩ room input) := by
  fun_induction fill ⟨source⟩ room input with
  | case1 room => exact ⟨.nothing source [], by simp, .finished⟩
  | case2 room input nonempty error failed =>
      exact ⟨.nothing source input, by simp, .failed nonempty failed⟩
  | case3 room input nonempty sized found encoded fits later inductionHypothesis =>
      obtain ⟨takes, laterFits, stops⟩ := inductionHypothesis
      obtain ⟨part, isPart, ⟨rest, rfl⟩, size⟩ := Charset.first_eq_ok_iff.mp found
      have first : Takes source (part ++ rest) ((part ++ rest).drop sized.size) encoded := by
        rw [size, List.drop_left]
        exact takes_of_encodeChar? isPart rest
      refine ⟨first.trans takes, ?_, ?_⟩
      · rintro limit rfl
        have short : encoded.length ≤ limit := by simpa using fits
        have further := laterFits _ rfl
        dsimp only [later] at further ⊢
        rw [List.length_append]
        omega
      · dsimp only [later] at stops ⊢
        cases room with
        | none => exact stops
        | some limit =>
            rw [Option.map_some, Option.map_some, Nat.sub_sub, ← List.length_append] at stops
            exact stops
  | case4 room input nonempty sized found encoded full =>
      obtain ⟨part, isPart, ⟨rest, rfl⟩, size⟩ := Charset.first_eq_ok_iff.mp found
      cases room with
      | none => exact absurd rfl full
      | some limit =>
          have long : limit < encoded.length := by simpa using full
          exact ⟨.nothing source _, by simp, .full isPart rfl
            (Nat.lt_of_lt_of_eq long (String.length_utf8EncodeChar sized.char))⟩

theorem Stops.eq_nil (stops : Stops source room left none) : left = [] := by
  cases stops
  rfl

/-- Where a conversion stops for want of a character, none stands first. -/
theorem Stops.of_ne_outputFull (stops : Stops source room left (some error))
    (notFull : error ≠ .outputFull) : left ≠ [] ∧ source.first left = .error error := by
  cases stops with
  | failed nonempty failed => exact ⟨nonempty, failed⟩
  | full => exact absurd rfl notFull

theorem Stops.of_no_limit (stops : Stops source none left (some error)) :
    left ≠ [] ∧ source.first left = .error error := by
  cases stops with
  | failed nonempty failed => exact ⟨nonempty, failed⟩
  | full _ limited => cases limited

/-- A conversion is full only in front of a character that does not fit. -/
theorem Stops.of_outputFull (stops : Stops source room left (some .outputFull)) :
    ∃ char part rest limit, source.encodeChar? char = some part ∧ left = part ++ rest ∧
      room = some limit ∧ limit < char.utf8Size := by
  cases stops with
  | full encoded limited long => exact ⟨_, _, _, _, encoded, rfl, limited, long⟩
  | failed nonempty failed =>
      rcases Charset.fails_of_first nonempty failed with ⟨-, same⟩ | ⟨-, same⟩
      · cases same
      · cases same

/-- A conversion without a limit takes the characters in front and goes on behind them. -/
theorem fill_none_append {taken : Octets} (encodes : source.Encodes chars taken)
    (left : Octets) :
    fill ⟨source⟩ none (taken ++ left) = (fill ⟨source⟩ none left).behind (Utf8.encode chars) := by
  induction encodes with
  | nil => rfl
  | @cons char chars part rest encoded encodes inductionHypothesis =>
      have nonempty : part ++ (rest ++ left) ≠ [] :=
        List.append_ne_nil_of_left_ne_nil
          (List.ne_nil_of_length_pos (Charset.length_pos_of_encodeChar? encoded)) _
      rw [List.append_assoc, fill, if_neg nonempty,
        Charset.first_of_encodeChar? encoded (List.prefix_append part _)]
      dsimp only
      rw [Option.all_none, if_pos rfl, Option.map_none, List.drop_left, inductionHypothesis,
        Utf8.encode_cons, Conversion.behind, Conversion.behind, List.append_assoc]

theorem fill_nil (source : Charset) (room : Option Nat) :
    fill ⟨source⟩ room [] = ⟨[], [], none⟩ := by
  rw [fill, if_pos rfl]

theorem fill_none_of_encodes (encodes : source.Encodes chars input) :
    fill ⟨source⟩ none input = ⟨Utf8.encode chars, [], none⟩ := by
  have whole := fill_none_append encodes []
  rw [List.append_nil, fill_nil, Conversion.behind, List.append_nil] at whole
  exact whole

theorem Takes.fill_none_eq (takes : Takes source input left produced) :
    fill ⟨source⟩ none input = (fill ⟨source⟩ none left).behind produced := by
  obtain ⟨chars, taken, encodes, rfl, rfl⟩ := takes
  exact fill_none_append encodes left

/-- A limit that is not reached makes no difference. -/
theorem fill_none_of_ne_outputFull
    (notFull : (fill ⟨source⟩ room input).error? ≠ some .outputFull) :
    fill ⟨source⟩ none input = fill ⟨source⟩ room input := by
  obtain ⟨takes, -, stops⟩ := converts_fill source room input
  cases converted : fill ⟨source⟩ room input with
  | mk produced left error? =>
      rw [converted] at takes stops notFull
      dsimp only at takes stops notFull
      rw [takes.fill_none_eq, Conversion.behind]
      cases error? with
      | none => rw [stops.eq_nil, fill_nil, List.append_nil]
      | some error =>
          obtain ⟨nonempty, failed⟩ := stops.of_ne_outputFull fun same => notFull (same ▸ rfl)
          rw [fill, if_neg nonempty, failed, List.append_nil]

/-- A conversion without a limit is exact. It succeeds if and only if the input is the encoding of
some characters, and writes these in UTF-8. Otherwise it writes the longest run of characters from
the front, and what is left starts with the first octet that belongs to none of them. The input is
incomplete then if what is left ends within a character, and invalid if not. ISO 8859-1 has a
character for every octet. -/
theorem convert_unlimited_exact (source : Charset) (input : Octets) :
    ((convert ⟨source⟩ none [] input).error? = none ↔ ∃ chars, source.Encodes chars input) ∧
    (∀ chars, source.Encodes chars input →
      convert ⟨source⟩ none [] input = ⟨Utf8.encode chars, [], none⟩) ∧
    (∀ error, (convert ⟨source⟩ none [] input).error? = some error →
      ∃ chars taken, source.Encodes chars taken ∧
        input = taken ++ (convert ⟨source⟩ none [] input).left ∧
        (convert ⟨source⟩ none [] input).left ≠ [] ∧
        (convert ⟨source⟩ none [] input).produced = Utf8.encode chars ∧
        (∀ others front, source.Encodes others front → front <+: input → others <+: chars) ∧
        source.Fails (convert ⟨source⟩ none [] input).left error) ∧
    (source = .latin1 → (convert ⟨source⟩ none [] input).error? = none) := by
  rw [convert, Option.map_none]
  obtain ⟨⟨chars, taken, encodes, split, produced⟩, -, stops⟩ := converts_fill source none input
  rw [Option.map_none] at stops
  refine ⟨⟨?_, ?_⟩, fun chars => fill_none_of_encodes, ?_, ?_⟩
  · intro finished
    rw [finished] at stops
    rw [stops.eq_nil, List.append_nil] at split
    exact ⟨chars, split ▸ encodes⟩
  · rintro ⟨chars, encodes⟩
    rw [fill_none_of_encodes encodes]
  · intro error stopped
    rw [stopped] at stops
    obtain ⟨nonempty, failed⟩ := stops.of_no_limit
    refine ⟨chars, taken, encodes, split, nonempty, produced, ?_,
      Charset.fails_of_first nonempty failed⟩
    intro others front othersEncode stand
    rw [split] at stand
    apply encodes.prefix_of_stops ?_ othersEncode stand
    intro char part encoded stands
    rw [Charset.first_of_encodeChar? encoded stands] at failed
    cases failed
  · intro isLatin1
    subst isLatin1
    cases stopped : (fill ⟨.latin1⟩ none input).error? with
    | none => rfl
    | some error =>
        rw [stopped] at stops
        obtain ⟨nonempty, failed⟩ := stops.of_no_limit
        obtain ⟨octet, rest, split⟩ := List.exists_cons_of_ne_nil nonempty
        rw [split] at failed
        cases failed

/-- In UTF-16 a high surrogate with one octet behind it is incomplete, and with the two octets of a
low surrogate it is a character. -/
theorem convert_utf16_surrogates :
    (∃ chars taken, Charset.utf16.Encodes chars taken ∧
      [0x00, 0x41, 0xd8, 0x40, 0xdc] = taken ++ [0xd8, 0x40, 0xdc] ∧
      [0x41] = Utf8.encode chars ∧
      (∀ others front, Charset.utf16.Encodes others front →
        front <+: [0x00, 0x41, 0xd8, 0x40, 0xdc] → others <+: chars) ∧
      Charset.utf16.Fails [0xd8, 0x40, 0xdc] .incompleteSequence) ∧
    convert ⟨.utf16⟩ none [] [0xd8, 0x40, 0xdc, 0xa2] = ⟨Utf8.encode ['𠂢'], [], none⟩ ∧
    (convert ⟨.latin1⟩ none [] [0xd8, 0x40, 0xdc]).error? = none := by
  have cut : convert ⟨.utf16⟩ none [] [0x00, 0x41, 0xd8, 0x40, 0xdc] =
      ⟨[0x41], [0xd8, 0x40, 0xdc], some .incompleteSequence⟩ := by decide +kernel
  have encodes : Charset.utf16.Encodes ['𠂢'] ([0xd8, 0x40, 0xdc, 0xa2] ++ []) := .cons rfl .nil
  refine ⟨?_, (convert_unlimited_exact .utf16 _).2.1 _ encodes,
    (convert_unlimited_exact .latin1 _).2.2.2 rfl⟩
  obtain ⟨chars, taken, encodes, split, -, produced, longest, fails⟩ :=
    (convert_unlimited_exact .utf16 [0x00, 0x41, 0xd8, 0x40, 0xdc]).2.2.1 _ (by rw [cut])
  rw [cut] at split produced fails
  exact ⟨chars, taken, encodes, split, produced, longest, fails⟩

end Transcoder

end Asn1
