import Asn1.Proofs.Text.Conversion

/-!
# Room for converted text

The output of a conversion gets at most twice as long as the input. Wherever the conversion has got
to, what is written and twice what is left do not exceed this, so that the next character fits and
the limit makes no difference to any text.
-/

namespace Asn1

namespace Transcoder

variable {source : Charset} {input left produced part : Octets} {char : Char}

/-- What is written leaves room for twice what is left. -/
theorem Takes.length_le (takes : Takes source input left produced) :
    produced.length + 2 * left.length ≤ 2 * input.length := by
  obtain ⟨chars, taken, encodes, rfl, rfl⟩ := takes
  have written := encodes.length_encode_le
  rw [List.length_append]
  omega

/-- The next character fits, since writing it is one more step of the same kind. -/
theorem Takes.next_fits (takes : Takes source input left produced)
    (encoded : source.encodeChar? char = some part) (stands : part <+: left) :
    (produced ++ String.utf8EncodeChar char).length ≤ 2 * input.length := by
  obtain ⟨rest, rfl⟩ := stands
  have further := takes.trans (takes_of_encodeChar? encoded rest)
  exact (Nat.le_add_right _ _).trans further.length_le

theorem convert_twice_eq (source : Charset) (input : Octets) :
    convert ⟨source⟩ (some (input.length * 2)) [] input = convert ⟨source⟩ none [] input :=
  fill_twice_eq source input

end Transcoder

namespace Text

variable {source : Charset} {octets : Octets} {text : Text} {error : TranscodeError}

/-- The encoding that content is converted from. UTF-8 is taken as it is, and the T.61 table is not
an encoding with a conversion. -/
def source? (tag : Tag) (options : TextOptions) : Option Charset :=
  if tag = .teletexString then
    if options.teletexAsLatin1 then some .latin1 else none
  else if tag = .universalString then some .utf32
  else if tag = .bmpString then some .utf16
  else none

theorem decode_of_source? (converted : source? text.tag text.options = some source) :
    text.decode = transcode source text.body := by
  obtain ⟨tag, body, options⟩ := text
  rw [source?] at converted
  split_ifs at converted with isTeletex asLatin1 isUniversal isBmp
  · cases isTeletex
    cases converted
    rw [decode_teletexString, readTeletex, if_pos asLatin1]
  · cases isUniversal
    cases converted
    exact decode_universalString
  · cases isBmp
    cases converted
    exact decode_bmpString

/-- What a conversion without a limit writes is the encoding of a text. -/
theorem exists_text_of_convert (source : Charset) (octets : Octets) :
    ∃ string, ofUtf8 (Transcoder.convert ⟨source⟩ none [] octets).produced = .ok string := by
  obtain ⟨chars, taken, encodes, split, produced⟩ :=
    (Transcoder.converts_fill source none octets).takes
  refine ⟨String.ofList chars, ?_⟩
  rw [Transcoder.convert, Option.map_none, produced]
  exact ofUtf8_encode chars

theorem transcode_of_error
    (failed : (Transcoder.convert ⟨source⟩ none [] octets).error? = some error) :
    transcode source octets = .error error := by
  rw [transcode, Transcoder.convert_twice_eq, failed]

theorem transcode_of_finished
    (finished : (Transcoder.convert ⟨source⟩ none [] octets).error? = none) :
    transcode source octets = ofUtf8 (Transcoder.convert ⟨source⟩ none [] octets).produced := by
  rw [transcode, Transcoder.convert_twice_eq, finished]

theorem error_of_decode (failed : text.decode = .error error) : error ≠ .outputFull := by
  rw [decode] at failed
  split_ifs at failed with _ isUtf8 isTeletex asLatin1 isUniversal isBmp
  · rw [error_of_ofUtf8 failed]
    decide
  · rcases error_of_transcode failed with rfl | rfl <;> decide
  · rw [ofT61] at failed
    split at failed <;> cases failed
    decide
  · rcases error_of_transcode failed with rfl | rfl <;> decide
  · rcases error_of_transcode failed with rfl | rfl <;> decide
  · cases failed
    decide

/-- The output never gets full. Wherever a conversion has got to, what is written and twice what is
left are no longer than twice the content together, and the next character fits. So teletex strings
that are read as ISO 8859-1, universal strings and BMP strings come to what a conversion without a
limit comes to: to its error, or to the text that it writes, which is always one. -/
theorem decode_has_room (text : Text) :
    text.decode ≠ .error .outputFull ∧
    ∀ source, source? text.tag text.options = some source →
      (∀ left produced, Transcoder.Takes source text.body left produced →
        produced.length + 2 * left.length ≤ 2 * text.body.length ∧
        ∀ char part, source.encodeChar? char = some part → part <+: left →
          (produced ++ String.utf8EncodeChar char).length ≤ 2 * text.body.length) ∧
      let whole := Transcoder.convert ⟨source⟩ none [] text.body
      Transcoder.convert ⟨source⟩ (some (text.body.length * 2)) [] text.body = whole ∧
      (∀ error, whole.error? = some error → text.decode = .error error) ∧
      (whole.error? = none →
        ∃ string, ofUtf8 whole.produced = .ok string ∧ text.decode = .ok string) := by
  refine ⟨fun failed => error_of_decode failed rfl, ?_⟩
  intro source converted
  have decoded := decode_of_source? converted
  refine ⟨fun left produced takes => ⟨takes.length_le, fun char part => takes.next_fits⟩, ?_⟩
  intro whole
  refine ⟨Transcoder.convert_twice_eq source text.body, ?_, ?_⟩
  · intro error failed
    rw [decoded, transcode_of_error failed]
  · intro finished
    obtain ⟨string, isText⟩ := exists_text_of_convert source text.body
    refine ⟨string, isText, ?_⟩
    rw [decoded, transcode_of_finished finished, isText]

/-- A BMP string whose first character takes up two octets and three in UTF-8, and which ends within
the second one, and a teletex string each of whose octets takes up two. -/
theorem decode_has_room_for_longer_characters :
    ([] ++ String.utf8EncodeChar '緑').length ≤ 2 * [0x7d, 0xd1, 0xd8].length ∧
    (Text.mk .bmpString [0x7d, 0xd1, 0xd8] {}).decode = .error .incompleteSequence ∧
    ∃ string, ofUtf8 [0xc3, 0xb2, 0xc3, 0xbf] = .ok string ∧
      (Text.mk .teletexString [0xf2, 0xff] ⟨true, true⟩).decode = .ok string := by
  obtain ⟨-, bmp⟩ := decode_has_room (Text.mk .bmpString [0x7d, 0xd1, 0xd8] {})
  obtain ⟨room, -, failed, -⟩ := bmp .utf16 rfl
  obtain ⟨-, teletex⟩ := decode_has_room (Text.mk .teletexString [0xf2, 0xff] ⟨true, true⟩)
  obtain ⟨-, -, -, finished⟩ := teletex .latin1 rfl
  have converted : Transcoder.convert ⟨.latin1⟩ none [] [0xf2, 0xff] =
      ⟨[0xc3, 0xb2, 0xc3, 0xbf], [], none⟩ := by decide +kernel
  rw [converted] at finished
  refine ⟨?_, failed .incompleteSequence (by decide +kernel), finished rfl⟩
  have first := room [0x7d, 0xd1, 0xd8] [] (.nothing _ _)
  exact first.2 '緑' [0x7d, 0xd1] (by decide +kernel) (List.prefix_append [0x7d, 0xd1] [0xd8])

end Text

end Asn1
