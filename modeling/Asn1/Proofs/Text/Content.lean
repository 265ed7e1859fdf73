import Asn1.Proofs.Text.Capacity
import Mathlib.Data.List.Sort

/-!
# The content that writes a text

In each type a text has at most one content. `content?` finds it, and it is read as the text and
nothing else is. So the content can be told from the text that is shown for it.
-/

namespace Asn1

/-- Where two ways to read undo each other, they do so for lists. -/
theorem mapM_eq_some_comm {α β : Type} {read : α → Option β} {write : β → Option α}
    (inverse : ∀ a b, read a = some b ↔ write b = some a) {as : List α} {bs : List β} :
    as.mapM read = some bs ↔ bs.mapM write = some as := by
  induction as generalizing bs with
  | nil => cases bs <;> simp [List.mapM_cons, Option.bind_eq_some_iff]
  | cons a as inductionHypothesis =>
      cases bs with
      | nil => simp [List.mapM_cons, Option.bind_eq_some_iff]
      | cons b bs =>
          simp [List.mapM_cons, Option.bind_eq_some_iff, inverse, inductionHypothesis]

namespace Charset

variable {charset : Charset} {chars : List Char} {octets : Octets}

/-- The octets that write characters one after another, if the encoding has them all. -/
def encode? (charset : Charset) (chars : List Char) : Option Octets :=
  (chars.mapM charset.encodeChar?).map List.flatten

theorem encodes_iff_encode? :
    charset.Encodes chars octets ↔ charset.encode? chars = some octets := by
  rw [encode?]
  constructor
  · intro encodes
    induction encodes with
    | nil => rfl
    | cons encoded _ inductionHypothesis =>
        obtain ⟨parts, each, rfl⟩ := Option.map_eq_some_iff.mp inductionHypothesis
        rw [List.mapM_cons, encoded, each]
        rfl
  · intro encoded
    obtain ⟨parts, each, rfl⟩ := Option.map_eq_some_iff.mp encoded
    clear encoded
    induction chars generalizing parts with
    | nil =>
        cases each
        exact .nil
    | cons char chars inductionHypothesis =>
        simp only [List.mapM_cons, Option.bind_eq_bind, Option.bind_eq_some_iff] at each
        obtain ⟨part, encoded, others, each, same⟩ := each
        cases same
        exact .cons encoded (inductionHypothesis others each)

end Charset

namespace T61

theorem nodup_of_insertionSort {codes : List Nat}
    (increasing : (codes.insertionSort (· ≤ ·)).IsChain (· < ·)) : codes.Nodup := by
  have different := (List.isChain_iff_pairwise.mp increasing).imp Nat.ne_of_lt
  exact (List.perm_insertionSort _ codes).nodup_iff.mp different

-- Few entries are out of order, so that sorting them takes fewer steps than comparing them all.
/-- No code point stands in the table twice, but for the mark of octets that are not defined. -/
theorem pairwise_table :
    table.toList.Pairwise fun code other => code ≠ 0 → other ≠ 0 → code ≠ other := by
  have defined : (table.toList.filter (· ≠ 0)).Nodup := nodup_of_insertionSort (by decide +kernel)
  simpa using List.pairwise_filter.mp defined

theorem codePoint_eq_getElem (octet : UInt8) :
    ∃ bound : octet.toNat < table.toList.length, codePoint octet = table.toList[octet.toNat] := by
  have bound : octet.toNat < table.size := octet.toNat_lt.trans_eq (by decide +kernel)
  refine ⟨bound, ?_⟩
  rw [codePoint, Array.getD, dif_pos bound, Array.getElem_toList]
  rfl

theorem codePoint_ne_of_lt {octet other : UInt8} (less : octet.toNat < other.toNat)
    (defined : isDefined octet = true) (otherDefined : isDefined other = true) :
    codePoint octet ≠ codePoint other := by
  obtain ⟨bound, entry⟩ := codePoint_eq_getElem octet
  obtain ⟨otherBound, otherEntry⟩ := codePoint_eq_getElem other
  have different := List.pairwise_iff_getElem.mp pairwise_table _ _ bound otherBound less
  rw [← entry, ← otherEntry] at different
  exact different (of_decide_eq_true defined) (of_decide_eq_true otherDefined)

theorem char?_injective {octet other : UInt8} {char : Char} (read : char? octet = some char)
    (otherRead : char? other = some char) : octet = other := by
  obtain ⟨defined, number⟩ := char?_eq_some_iff.mp read
  obtain ⟨otherDefined, otherNumber⟩ := char?_eq_some_iff.mp otherRead
  have same := number.symm.trans otherNumber
  rcases Nat.lt_trichotomy octet.toNat other.toNat with less | equal | greater
  · exact absurd same (codePoint_ne_of_lt less defined otherDefined)
  · exact UInt8.toNat_inj.mp equal
  · exact absurd same.symm (codePoint_ne_of_lt greater otherDefined defined)

/-- The octet that stands for a character, if there is one. -/
def octet? (char : Char) : Option UInt8 :=
  ((List.range 256).map UInt8.ofNat).find? fun octet => char? octet = some char

theorem octet?_eq_some_iff {char : Char} {octet : UInt8} :
    octet? char = some octet ↔ char? octet = some char := by
  constructor
  · intro found
    simpa using List.find?_some found
  · intro read
    have listed : octet ∈ (List.range 256).map UInt8.ofNat :=
      List.mem_map.mpr ⟨octet.toNat, List.mem_range.mpr octet.toNat_lt, UInt8.ofNat_toNat⟩
    have isFound : (octet? char).isSome = true :=
      List.find?_isSome.mpr ⟨octet, listed, decide_eq_true read⟩
    obtain ⟨other, found⟩ := Option.isSome_iff_exists.mp isFound
    have otherRead : char? other = some char := by simpa using List.find?_some found
    rw [found, char?_injective read otherRead]

end T61

namespace Text

variable {tag : Tag} {options : TextOptions} {source : Charset} {octets body : Octets}
  {string : String}

/-- The types whose content is read as UTF-8. -/
def utf8Types : List Tag := [.utf8String, .numericString, .printableString, .ia5String]

/-- The content that writes a text in a type, if its characters can be written there. -/
def content? (tag : Tag) (options : TextOptions) (text : String) : Option Octets :=
  if tag ∈ utf8Types then Charset.utf8.encode? text.toList
  else if tag = .teletexString ∧ options.teletexAsLatin1 = false then
    text.toList.mapM T61.octet?
  else
    match source? tag options with
    | some source => source.encode? text.toList
    | none => if text = "" then some [] else none

theorem ofUtf8_eq_ok_iff_encode? :
    ofUtf8 octets = .ok string ↔ Charset.utf8.encode? string.toList = some octets := by
  rw [ofUtf8_eq_ok_iff, ← Charset.encodes_iff_encode?, Charset.encodes_utf8_iff]
  rfl

theorem ofT61_eq_ok_iff_octets :
    ofT61 octets = .ok string ↔ string.toList.mapM T61.octet? = some octets := by
  have inverse : ∀ char octet, T61.octet? char = some octet ↔ T61.char? octet = some char :=
    fun char octet => T61.octet?_eq_some_iff
  rw [mapM_eq_some_comm inverse, T61.mapM_char?_eq_some_iff, ofT61_eq_ok_iff]

/-- A conversion succeeds for the encodings of texts and for nothing else. -/
theorem transcode_eq_ok_iff :
    transcode source octets = .ok string ↔ source.encode? string.toList = some octets := by
  rw [← Charset.encodes_iff_encode?]
  constructor
  · intro read
    obtain ⟨⟨chars, taken, encodes, split, -⟩, -, stops⟩ :=
      Transcoder.converts_fill source none octets
    cases outcome : (Transcoder.convert ⟨source⟩ none [] octets).error? with
    | some error =>
        rw [transcode_of_error outcome] at read
        cases read
    | none =>
        rw [Transcoder.convert, Option.map_none] at outcome
        rw [outcome] at stops
        rw [stops.eq_nil, List.append_nil] at split
        subst split
        rw [transcode_of_encodes encodes, Except.ok.injEq] at read
        rw [← read, String.toList_ofList]
        exact encodes
  · intro encodes
    rw [transcode_of_encodes encodes, String.ofList_toList]

/-- Of a type that is none of text, nothing but no content at all can be read. -/
theorem decode_eq_ok_iff_of_source?_eq_none (notUtf8 : tag ∉ utf8Types)
    (notT61 : ¬ (tag = .teletexString ∧ options.teletexAsLatin1 = false))
    (notConverted : source? tag options = none) :
    (Text.mk tag body options).decode = .ok string ↔ string = "" ∧ body = [] := by
  rw [source?] at notConverted
  split_ifs at notConverted with isTeletex asLatin1 isUniversal isBmp
  · exact absurd ⟨isTeletex, Bool.eq_false_iff.mpr asLatin1⟩ notT61
  · rw [utf8Types] at notUtf8
    simp only [decode, notUtf8, isTeletex, isUniversal, isBmp, ↓reduceIte]
    split_ifs with empty <;> simp [empty, eq_comm]

/-- A text is read from the content that writes it and from no other. -/
theorem decode_eq_ok_iff_content? :
    (Text.mk tag body options).decode = .ok string ↔ content? tag options string = some body := by
  rw [content?]
  by_cases isUtf8 : tag ∈ utf8Types
  · rw [if_pos isUtf8, decode_eq_ofUtf8 isUtf8, ofUtf8_eq_ok_iff_encode?]
  rw [if_neg isUtf8]
  by_cases isT61 : tag = .teletexString ∧ options.teletexAsLatin1 = false
  · rw [if_pos isT61]
    obtain ⟨rfl, asT61⟩ := isT61
    rw [decode_teletexString, readTeletex, if_neg (Bool.eq_false_iff.mp asT61),
      ofT61_eq_ok_iff_octets]
  rw [if_neg isT61]
  cases converted : source? tag options with
  | some source => rw [decode_of_source? converted, transcode_eq_ok_iff]
  | none =>
      rw [decode_eq_ok_iff_of_source?_eq_none isUtf8 isT61 converted]
      simp [eq_comm]

/-- Conversion is exact and injective. In each type and with each choice a text is read from the
content that writes its characters one after another, and from no other content: two contents that
are read as the same text are the same. -/
theorem decode_injective (tag : Tag) (options : TextOptions) :
    (∀ body string, (Text.mk tag body options).decode = .ok string ↔
      content? tag options string = some body) ∧
    ∀ body other string, (Text.mk tag body options).decode = .ok string →
      (Text.mk tag other options).decode = .ok string → body = other := by
  refine ⟨fun body string => decode_eq_ok_iff_content?, ?_⟩
  intro body other string read otherRead
  rw [decode_eq_ok_iff_content?] at read otherRead
  exact Option.some.inj (read.symm.trans otherRead)

/-- A surrogate pair is the only content for its character, and the octet 0x23 is not read as the
character that the T.61 table has for 0xa6. -/
theorem decode_injective_surrogates :
    [0xd8, 0x40, 0xdc, 0xa2] = (content? .bmpString {} "𠂢").getD [] ∧
    (Text.mk .teletexString [0xa6] {}).decode = .ok "#" ∧
    (Text.mk .teletexString [0x23] {}).decode ≠ .ok "#" := by
  have pair : (Text.mk .bmpString [0xd8, 0x40, 0xdc, 0xa2] {}).decode = .ok "𠂢" := by
    decide +kernel
  have written : (Text.mk .bmpString ((content? .bmpString {} "𠂢").getD []) {}).decode =
      .ok "𠂢" := by decide +kernel
  have mark : (Text.mk .teletexString [0xa6] {}).decode = .ok "#" := by decide +kernel
  refine ⟨(decode_injective .bmpString {}).2 _ _ _ pair written, mark, ?_⟩
  intro read
  exact absurd ((decode_injective .teletexString {}).2 _ _ _ mark read) (by decide)

end Text

end Asn1
