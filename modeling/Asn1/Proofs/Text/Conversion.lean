import Asn1.Proofs.Text.Validation

/-!
# Valid text is converted

What is valid in a text type stands for a text, but for the types in which everything is valid. For
UTF-8 strings that are validated and for teletex strings, the converse holds too.
-/

namespace Asn1

namespace Charset

variable {charset : Charset} {char : Char} {chars : List Char} {part octets : Octets}

theorem utf8Size_le_two (small : char.toNat < 0x800) : char.utf8Size ≤ 2 := by
  have number : char.val.toNat < 0x800 := small
  rw [← String.length_utf8EncodeChar, String.utf8EncodeChar]
  split
  · exact Nat.le_succ 1
  · rw [if_pos (by omega)]
    exact Nat.le_refl 2

theorem utf8Size_le_three (small : char.toNat < 0x10000) : char.utf8Size ≤ 3 := by
  have number : char.val.toNat < 0x10000 := small
  by_cases smaller : char.toNat < 0x800
  · exact (utf8Size_le_two smaller).trans (by decide)
  · have number : 0x800 ≤ char.val.toNat := Nat.not_lt.mp smaller
    rw [← String.length_utf8EncodeChar, String.utf8EncodeChar, if_neg (by omega),
      if_neg (by omega), if_pos (by omega)]
    exact Nat.le_refl 3

theorem length_unit (number : Nat) : (unit number).length = 2 := rfl

/-- UTF-8 takes up at most twice the octets of any other encoding. -/
theorem utf8Size_le_of_encodeChar? (encoded : charset.encodeChar? char = some part) :
    char.utf8Size ≤ 2 * part.length := by
  have widest := char.utf8Size_le_four
  cases charset with
  | utf8 =>
      cases encoded
      rw [String.length_utf8EncodeChar]
      omega
  | latin1 =>
      rw [encodeChar?, Option.ite_none_right_eq_some] at encoded
      obtain ⟨bound, same⟩ := encoded
      cases same
      exact utf8Size_le_two (by omega)
  | utf16 =>
      rw [encodeChar?] at encoded
      split at encoded
      · next basic =>
          cases encoded
          have small := utf8Size_le_three basic
          rw [length_unit]
          omega
      · cases encoded
        rw [List.length_append, length_unit, length_unit]
        omega
  | utf32 =>
      cases encoded
      rw [List.length_append, length_unit, length_unit]
      omega

theorem Encodes.length_encode_le (encodes : charset.Encodes chars octets) :
    (Utf8.encode chars).length ≤ 2 * octets.length := by
  induction encodes with
  | nil => exact Nat.le_refl 0
  | cons encoded encodes inductionHypothesis =>
      have first := utf8Size_le_of_encodeChar? encoded
      rw [Utf8.encode_cons, List.length_append, List.length_append, String.length_utf8EncodeChar]
      omega

theorem encodes_latin1 (octets : Octets) :
    latin1.Encodes (octets.map fun octet => Char.ofNat octet.toNat) octets := by
  induction octets with
  | nil => exact .nil
  | cons octet octets inductionHypothesis =>
      have encoded : latin1.encodeChar? (Char.ofNat octet.toNat) = some [octet] := by
        rw [encodeChar?, toNat_ofNat_octet, if_pos octet.toNat_lt, UInt8.ofNat_toNat]
      exact .cons encoded inductionHypothesis

end Charset

namespace Utf8

theorem exists_eq_ofString_of_ascii {octets : Octets}
    (ascii : ∀ octet ∈ octets, octet.toNat < 128) : ∃ text, octets = ofString text := by
  rw [← exists_eq_encode_iff]
  exact ⟨octets.map fun octet => Char.ofNat octet.toNat, (encode_map_ofNat ascii).symm⟩

end Utf8

namespace T61

theorem codePoint_lt (octet : UInt8) : codePoint octet < 0xd800 := by
  have each : ∀ code ∈ table.toList, code < 0xd800 := by decide +kernel
  rw [codePoint, Array.getD]
  split
  · exact each _ (Array.getElem_mem_toList _)
  · decide

/-- What the table has for an octet is always the code point of a character. -/
theorem char?_eq_scalar? (octet : UInt8) :
    char? octet = if isDefined octet then scalar? (codePoint octet) else none := by
  have valid : (codePoint octet).isValidChar := .inl (codePoint_lt octet)
  rw [char?, scalar?, dif_pos valid, Char.ofNat, dif_pos valid]

theorem char?_eq_some_iff {octet : UInt8} {char : Char} :
    char? octet = some char ↔ isDefined octet = true ∧ char.toNat = codePoint octet := by
  rw [char?_eq_scalar?, Option.ite_none_right_eq_some, scalar?_eq_some_iff]

theorem mapM_char?_eq_some_iff {octets : Octets} {chars : List Char} :
    octets.mapM char? = some chars ↔
      (∀ octet ∈ octets, isDefined octet = true) ∧
        chars.map Char.toNat = octets.map codePoint := by
  induction octets generalizing chars with
  | nil =>
      rw [List.mapM_nil, List.map_nil, List.map_eq_nil_iff, and_iff_right (List.forall_mem_nil _)]
      exact Option.some_inj.trans eq_comm
  | cons octet octets inductionHypothesis =>
      simp only [List.mapM_cons, Option.bind_eq_bind, Option.bind_eq_some_iff,
        char?_eq_some_iff, inductionHypothesis, List.forall_mem_cons]
      constructor
      · rintro ⟨char, ⟨defined, number⟩, others, ⟨eachDefined, numbers⟩, same⟩
        cases same
        rw [List.map_cons, List.map_cons, number, numbers]
        exact ⟨⟨defined, eachDefined⟩, rfl⟩
      · rintro ⟨⟨defined, eachDefined⟩, same⟩
        obtain ⟨char, others, rfl, number, numbers⟩ := List.map_eq_cons_iff.mp same
        exact ⟨char, ⟨defined, number⟩, others, ⟨eachDefined, numbers⟩, rfl⟩

end T61

namespace Transcoder

variable {source : Charset} {input : Octets} {chars : List Char}

/-- Output of twice the length of the input is never full. -/
theorem fill_twice_ne_outputFull (source : Charset) (input : Octets) :
    (fill ⟨source⟩ (some (input.length * 2)) input).error? ≠ some .outputFull := by
  intro full
  obtain ⟨⟨chars, taken, encodes, split, produced⟩, -, stops⟩ :=
    converts_fill source (some (input.length * 2)) input
  rw [full] at stops
  obtain ⟨char, part, rest, limit, encoded, left, limited, long⟩ := stops.of_outputFull
  have written := encodes.length_encode_le
  have next := Charset.utf8Size_le_of_encodeChar? encoded
  have lengths := congrArg List.length split
  rw [left, List.length_append, List.length_append] at lengths
  rw [Option.map_some, Option.some.injEq, produced] at limited
  omega

theorem fill_twice_eq (source : Charset) (input : Octets) :
    fill ⟨source⟩ (some (input.length * 2)) input = fill ⟨source⟩ none input :=
  (fill_none_of_ne_outputFull (fill_twice_ne_outputFull source input)).symm

end Transcoder

namespace Text

variable {source : Charset} {octets body : Octets} {options : TextOptions} {string : String}
  {error : TranscodeError}

theorem ofT61_eq_ok_iff :
    ofT61 octets = .ok string ↔
      (∀ octet ∈ octets, T61.isDefined octet = true) ∧
        string.toList.map Char.toNat = octets.map T61.codePoint := by
  rw [← T61.mapM_char?_eq_some_iff, ofT61]
  cases read : octets.mapM T61.char? with
  | none => simp
  | some chars =>
      simp only [Except.ok.injEq, Option.some.injEq]
      constructor
      · intro same
        rw [← same, String.toList_ofList]
      · intro same
        rw [same, String.ofList_toList]

theorem ofUtf8_encode (chars : List Char) :
    ofUtf8 (Utf8.encode chars) = .ok (String.ofList chars) := by
  rw [ofUtf8_eq_ok_iff, Utf8.ofString, String.toList_ofList]

theorem transcode_of_encodes {chars : List Char} (encodes : source.Encodes chars octets) :
    transcode source octets = .ok (String.ofList chars) := by
  have converted : Transcoder.convert ⟨source⟩ (some (octets.length * 2)) [] octets =
      ⟨Utf8.encode chars, [], none⟩ :=
    (Transcoder.fill_twice_eq source octets).trans (Transcoder.fill_none_of_encodes encodes)
  rw [transcode, converted]
  exact ofUtf8_encode chars

/-- A conversion fails where no character is, or where the octets end within one. -/
theorem error_of_transcode (failed : transcode source octets = .error error) :
    error = .invalidSequence ∨ error = .incompleteSequence := by
  obtain ⟨⟨chars, taken, encodes, split, produced⟩, -, stops⟩ :=
    Transcoder.converts_fill source (some (octets.length * 2)) octets
  have notFull := Transcoder.fill_twice_ne_outputFull source octets
  rw [transcode, Transcoder.convert, Option.map_some, List.length_nil, Nat.sub_zero] at failed
  cases outcome : (Transcoder.fill ⟨source⟩ (some (octets.length * 2)) octets).error? with
  | none =>
      rw [outcome, produced] at failed
      dsimp only at failed
      rw [ofUtf8_encode] at failed
      cases failed
  | some found =>
      rw [outcome] at failed stops notFull
      cases failed
      obtain ⟨nonempty, unreadable⟩ := stops.of_ne_outputFull fun same => notFull (same ▸ rfl)
      rcases Charset.fails_of_first nonempty unreadable with ⟨-, same⟩ | ⟨-, same⟩
      · exact .inr same
      · exact .inl same

theorem transcode_nil (source : Charset) : transcode source [] = .ok "" :=
  transcode_of_encodes .nil

/-- What is read of the content of a teletex string. -/
def readTeletex (options : TextOptions) (octets : Octets) : Except TranscodeError String :=
  if options.teletexAsLatin1 then transcode .latin1 octets else ofT61 octets

theorem decode_teletexString :
    (Text.mk .teletexString body options).decode = readTeletex options body := by
  have nothing : readTeletex options [] = .ok "" := by
    rw [readTeletex, transcode_nil]
    exact ite_self _
  apply decode_eq_of_ne_nil nothing
  intro nonempty
  exact if_neg nonempty

theorem decode_universalString :
    (Text.mk .universalString body options).decode = transcode .utf32 body := by
  apply decode_eq_of_ne_nil (transcode_nil .utf32)
  intro nonempty
  exact if_neg nonempty

theorem decode_bmpString :
    (Text.mk .bmpString body options).decode = transcode .utf16 body := by
  apply decode_eq_of_ne_nil (transcode_nil .utf16)
  intro nonempty
  exact if_neg nonempty

/-- Text that is valid even where its octets cannot be read. -/
def IsUnchecked (text : Text) : Prop :=
  text.tag = .utf8String ∧ text.options.validateUtf8 = false ∨
    text.tag = .universalString ∨ text.tag = .bmpString

/-- The types whose characters are some of ASCII. -/
def asciiTypes : List Tag := [.numericString, .printableString, .ia5String]

/-- The code point that an octet of a teletex string stands for. -/
def teletexCodePoint (options : TextOptions) : UInt8 → Nat :=
  if options.teletexAsLatin1 then UInt8.toNat else T61.codePoint

theorem mem_textTypes_of_isValid {text : Text} (valid : text.isValid = true) :
    text.tag ∈ Tag.textTypes := by
  by_contra notText
  simp only [Tag.textTypes, List.mem_cons, List.not_mem_nil, or_false, not_or] at notText
  simp [isValid, notText] at valid

theorem isValid_of_isUnchecked {text : Text} (unchecked : text.IsUnchecked) :
    text.isValid = true := by
  obtain ⟨tag, body, options⟩ := text
  rcases unchecked with ⟨isUtf8, lax⟩ | isUniversal | isBmp
  · cases isUtf8
    rw [isValid_utf8String_iff]
    intro validates
    rw [lax] at validates
    cases validates
  · cases isUniversal
    rfl
  · cases isBmp
    rfl

theorem toNat_lt_of_isNumeric {octet : UInt8} (numeric : isNumeric octet = true) :
    octet.toNat < 128 := by
  simp only [isNumeric, decide_eq_true_eq] at numeric
  omega

theorem toNat_lt_of_isPrintable {octet : UInt8} (printable : isPrintable octet = true) :
    octet.toNat < 128 := by
  have marks : ∀ mark ∈ printableMarks, mark.toNat < 128 := by decide +kernel
  simp only [isPrintable, decide_eq_true_eq] at printable
  rcases printable with digit | upper | lower | mark
  · omega
  · omega
  · omega
  · exact marks octet mark

theorem toNat_lt_of_isValid {text : Text} (ofAscii : text.tag ∈ asciiTypes)
    (valid : text.isValid = true) : ∀ octet ∈ text.body, octet.toNat < 128 := by
  obtain ⟨tag, body, options⟩ := text
  intro octet membership
  simp only [asciiTypes, List.mem_cons, List.not_mem_nil, or_false] at ofAscii
  rcases ofAscii with isNumericString | isPrintableString | isIa5String
  · cases isNumericString
    have each : body.all isNumeric = true := valid
    exact toNat_lt_of_isNumeric (List.all_eq_true.mp each octet membership)
  · cases isPrintableString
    have each : body.all isPrintable = true := valid
    exact toNat_lt_of_isPrintable (List.all_eq_true.mp each octet membership)
  · cases isIa5String
    have each : body.all isAscii = true := valid
    exact of_decide_eq_true (List.all_eq_true.mp each octet membership)

theorem exists_decode_of_asciiTypes {text : Text} (ofAscii : text.tag ∈ asciiTypes)
    (valid : text.isValid = true) :
    ∃ string, text.decode = .ok string ∧ Utf8.ofString string = text.body := by
  obtain ⟨string, written⟩ :=
    Utf8.exists_eq_ofString_of_ascii (toNat_lt_of_isValid ofAscii valid)
  refine ⟨string, ?_, written.symm⟩
  rw [decode_eq_ofUtf8 (List.mem_cons_of_mem _ ofAscii)]
  exact ofUtf8_eq_ok_iff.mpr written

theorem isValid_utf8String_iff_decode (validates : options.validateUtf8 = true) :
    (Text.mk .utf8String body options).isValid = true ↔
      ∃ string, (Text.mk .utf8String body options).decode = .ok string := by
  rw [isValid_utf8String_iff, imp_iff_right validates, decode_eq_ofUtf8 List.mem_cons_self]
  simp only [ofUtf8_eq_ok_iff]

theorem exists_string_of_codePoints {codePoints : List Nat}
    (valid : ∀ codePoint ∈ codePoints, codePoint.isValidChar) :
    ∃ string : String, string.toList.map Char.toNat = codePoints := by
  refine ⟨String.ofList (codePoints.map Char.ofNat), ?_⟩
  rw [String.toList_ofList, List.map_map]
  refine (List.map_congr_left ?_).trans codePoints.map_id
  intro codePoint membership
  exact Utf8.toNat_val_ofNat (valid codePoint membership)

theorem teletexCodePoint_lt (options : TextOptions) (octet : UInt8) :
    teletexCodePoint options octet < 0xd800 := by
  rw [teletexCodePoint]
  split
  · exact octet.toNat_lt.trans (by decide)
  · exact T61.codePoint_lt octet

theorem transcode_latin1_eq_ok_iff :
    transcode .latin1 octets = .ok string ↔
      string.toList.map Char.toNat = octets.map UInt8.toNat := by
  have encodes := Charset.encodes_latin1 octets
  have numbers : (octets.map fun octet => Char.ofNat octet.toNat).map Char.toNat =
      octets.map UInt8.toNat := by
    rw [List.map_map]
    exact List.map_congr_left fun octet _ => Charset.toNat_ofNat_octet octet
  rw [transcode_of_encodes encodes, Except.ok.injEq, ← numbers]
  constructor
  · intro same
    rw [← same, String.toList_ofList]
  · intro same
    have chars := List.map_injective_iff.mpr (fun _ _ => Char.toNat_inj.mp) same
    rw [← chars, String.ofList_toList]

/-- In each interpretation a teletex string has one character for each octet. -/
theorem decode_teletexString_eq_ok_iff :
    (Text.mk .teletexString body options).decode = .ok string ↔
      (options.teletexAsLatin1 = false → ∀ octet ∈ body, T61.isDefined octet = true) ∧
        string.toList.map Char.toNat = body.map (teletexCodePoint options) := by
  rw [decode_teletexString, readTeletex, teletexCodePoint]
  cases options.teletexAsLatin1 with
  | false => simp [ofT61_eq_ok_iff]
  | true => simp [transcode_latin1_eq_ok_iff]

theorem isValid_teletexString_iff_decode :
    (Text.mk .teletexString body options).isValid = true ↔
      ∃ string, (Text.mk .teletexString body options).decode = .ok string := by
  have readable : ∃ string : String,
      string.toList.map Char.toNat = body.map (teletexCodePoint options) := by
    apply exists_string_of_codePoints
    intro codePoint membership
    obtain ⟨octet, -, rfl⟩ := List.mem_map.mp membership
    exact .inl (teletexCodePoint_lt options octet)
  simp only [decode_teletexString_eq_ok_iff, isValid_teletexString_iff, exists_and_left,
    and_iff_left readable]

/-- Everything that is valid can be read, unless it is not checked at all. -/
theorem exists_decode_of_isValid {text : Text} (checked : ¬ text.IsUnchecked)
    (valid : text.isValid = true) : ∃ string, text.decode = .ok string := by
  by_cases ofAscii : text.tag ∈ asciiTypes
  · obtain ⟨string, decoded, -⟩ := exists_decode_of_asciiTypes ofAscii valid
    exact ⟨string, decoded⟩
  · have isText := mem_textTypes_of_isValid valid
    obtain ⟨tag, body, options⟩ := text
    simp only [IsUnchecked, not_or, not_and, Bool.not_eq_false] at checked
    simp only [asciiTypes, Tag.textTypes, List.mem_cons, List.not_mem_nil, or_false]
      at ofAscii isText
    have either : tag = .utf8String ∨ tag = .teletexString := by grind
    rcases either with isUtf8 | isTeletex
    · cases isUtf8
      exact (isValid_utf8String_iff_decode (checked.1 rfl)).mp valid
    · cases isTeletex
      exact isValid_teletexString_iff_decode.mp valid

theorem error_of_ofUtf8 (failed : ofUtf8 octets = .error error) : error = .invalidSequence := by
  rw [ofUtf8] at failed
  split at failed
  · cases failed
  · exact (Except.error.inj failed).symm

theorem error_of_isUnchecked {text : Text} (unchecked : text.IsUnchecked)
    (failed : text.decode = .error error) :
    error = .invalidSequence ∨ error = .incompleteSequence := by
  obtain ⟨tag, body, options⟩ := text
  rcases unchecked with ⟨isUtf8, -⟩ | isUniversal | isBmp
  · cases isUtf8
    rw [decode_eq_ofUtf8 List.mem_cons_self] at failed
    exact .inl (error_of_ofUtf8 failed)
  · cases isUniversal
    rw [decode_universalString] at failed
    exact error_of_transcode failed
  · cases isBmp
    rw [decode_bmpString] at failed
    exact error_of_transcode failed

/-- Validity and conversion agree. What is valid can be converted, except for UTF-8 strings that are
not validated, universal strings and BMP strings, which are always valid. Teletex strings, in either
interpretation, and UTF-8 strings that are validated are valid if and only if they can be converted.
Numeric, printable and IA5 strings are converted to the text that their octets write, and teletex
strings to one with a character for each octet. So in a decoded tree only those that are not checked
can fail to convert, for a sequence that is invalid or incomplete. -/
theorem conversion_agrees_with_validity :
    (∀ text : Text,
      (text.IsUnchecked → text.isValid = true) ∧
      (text.isValid = true → ¬ text.IsUnchecked → ∃ string, text.decode = .ok string) ∧
      (text.tag = .teletexString ∨ text.tag = .utf8String ∧ text.options.validateUtf8 = true →
        (text.isValid = true ↔ ∃ string, text.decode = .ok string)) ∧
      (text.tag ∈ asciiTypes → text.isValid = true →
        ∃ string, text.decode = .ok string ∧ Utf8.ofString string = text.body) ∧
      (text.tag = .teletexString → ∀ string, text.decode = .ok string →
        string.length = text.body.length ∧
          string.toList.map Char.toNat = text.body.map (teletexCodePoint text.options))) ∧
    ∀ (options : Options) (data : Octets) (value : Value) (text : Text) (error : TranscodeError),
      options.decode data = .ok value → .text text ∈ value.nodes → text.decode = .error error →
        text.options = options.toTextOptions ∧ text.IsUnchecked ∧
          (error = .invalidSequence ∨ error = .incompleteSequence) := by
  refine ⟨fun text => ⟨isValid_of_isUnchecked, fun valid checked =>
    exists_decode_of_isValid checked valid, ?_, exists_decode_of_asciiTypes, ?_⟩, ?_⟩
  · obtain ⟨tag, body, options⟩ := text
    intro either
    rcases either with isTeletex | ⟨isUtf8, validates⟩
    · cases isTeletex
      exact isValid_teletexString_iff_decode
    · cases isUtf8
      exact isValid_utf8String_iff_decode validates
  · obtain ⟨tag, body, options⟩ := text
    intro isTeletex string decoded
    cases isTeletex
    have codePoints := (decode_teletexString_eq_ok_iff.mp decoded).2
    refine ⟨?_, codePoints⟩
    have lengths := congrArg List.length codePoints
    rw [List.length_map, List.length_map, String.length_toList] at lengths
    exact lengths
  · intro options data value text error decoded membership failed
    obtain ⟨-, same, valid⟩ := Parser.isPrimitive_of_text_mem_nodes decoded membership
    have unchecked : text.IsUnchecked := by
      by_contra checked
      obtain ⟨string, succeeded⟩ := exists_decode_of_isValid checked valid
      rw [succeeded] at failed
      cases failed
    exact ⟨same, unchecked, error_of_isUnchecked unchecked failed⟩

/-- Half a character is valid as a BMP string and cannot be converted, as is a UTF-8 string that is
not validated. The T.61 table has a character of its own for the octet 0xa6. -/
theorem conversion_of_few_octets :
    ((Text.mk .bmpString [0xd8, 0x00] {}).isValid = true ∧
      (Text.mk .bmpString [0xd8, 0x00] {}).decode = .error .incompleteSequence) ∧
    (∃ string, (Text.mk .printableString [0x2a, 0x2e] {}).decode = .ok string) ∧
    (∃ string, (Text.mk .teletexString [0x41, 0xa6] {}).decode = .ok string ∧
      string.length = 2 ∧ string.toList.map Char.toNat = [0x41, 0x23]) ∧
    (∃ string, (Text.mk .numericString [0x31, 0x20, 0x32] {}).decode = .ok string ∧
      Utf8.ofString string = [0x31, 0x20, 0x32]) ∧
    ∃ value text, Options.decode { validateUtf8 := false } [0x30, 0x03, 0x0c, 0x01, 0xff] =
        .ok value ∧
      .text text ∈ value.nodes ∧ text.decode = .error .invalidSequence ∧
      text.options = ⟨false, false⟩ ∧ text.IsUnchecked := by
  obtain ⟨each, nodes⟩ := conversion_agrees_with_validity
  have tree : Options.decode { validateUtf8 := false } [0x30, 0x03, 0x0c, 0x01, 0xff] =
      .ok (.constructed .sequence [0x0c, 0x01, 0xff]
        [.text ⟨.utf8String, [0xff], ⟨false, false⟩⟩]) := by decide +kernel
  have unread : (Text.mk .utf8String [0xff] ⟨false, false⟩).decode = .error .invalidSequence := by
    decide +kernel
  have isNode : Value.text ⟨.utf8String, [0xff], ⟨false, false⟩⟩ ∈
      (Value.constructed .sequence [0x0c, 0x01, 0xff]
        [.text ⟨.utf8String, [0xff], ⟨false, false⟩⟩]).nodes := by simp [Value.nodes]
  refine ⟨⟨(each _).1 (.inr (.inr rfl)), by decide +kernel⟩, ?_, ?_, ?_, ?_⟩
  · exact (each (Text.mk .printableString [0x2a, 0x2e] {})).2.1 (by decide)
      (by simp [IsUnchecked, Tag.printableString, Tag.utf8String, Tag.universalString,
        Tag.bmpString])
  · obtain ⟨-, -, agrees, -, characters⟩ := each (Text.mk .teletexString [0x41, 0xa6] {})
    obtain ⟨string, decoded⟩ := (agrees (.inl rfl)).mp (by decide +kernel)
    obtain ⟨length, codePoints⟩ := characters rfl string decoded
    have table : [0x41, 0xa6].map (teletexCodePoint {}) = [0x41, 0x23] := by decide +kernel
    exact ⟨string, decoded, length, codePoints.trans table⟩
  · exact (each (Text.mk .numericString [0x31, 0x20, 0x32] {})).2.2.2.1 (by decide) (by decide)
  · obtain ⟨same, unchecked, -⟩ := nodes _ _ _ _ _ tree isNode unread
    exact ⟨_, _, tree, isNode, unread, same, unchecked⟩

end Text

end Asn1
