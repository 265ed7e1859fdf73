import Asn1.Proofs.Unicode.Transcoder
import Asn1.Text

/-!
# Which octets are valid text

UTF-8 is checked by converting it in rounds. Each round reads characters up to where its output is
full or where there is no character, so that the rounds together find well-formed text and nothing
else. The choices a text was decoded with matter for two types only.
-/

namespace Asn1

namespace Text

/-- A round of the check takes a text from the front. -/
theorem exists_text_of_fill (room : Option Nat) (octets : Octets) :
    ∃ chars, octets = Utf8.encode chars ++ (Transcoder.fill ⟨.utf8⟩ room octets).left := by
  obtain ⟨chars, taken, encodes, split, -⟩ := (Transcoder.converts_fill .utf8 room octets).takes
  rw [Charset.encodes_utf8_iff] at encodes
  subst encodes
  exact ⟨chars, split⟩

/-- The check of UTF-8 accepts the encodings of texts. -/
theorem checksUtf8_iff {octets : Octets} :
    checksUtf8 octets = true ↔ ∃ text, octets = Utf8.ofString text := by
  rw [← Utf8.exists_eq_encode_iff]
  fun_induction checksUtf8 octets with
  | case1 octets round outcome =>
      obtain ⟨chars, whole⟩ := exists_text_of_fill (some chunkSize) octets
      have stops := (Transcoder.converts_fill .utf8 (some chunkSize) octets).stops
      rw [outcome] at stops
      rw [stops.eq_nil, List.append_nil] at whole
      exact ⟨fun _ => ⟨chars, whole⟩, fun _ => rfl⟩
  | case2 octets round outcome inductionHypothesis =>
      -- A round ends between two characters, so that the octets are a text if what is left is one.
      obtain ⟨chars, whole⟩ := exists_text_of_fill (some chunkSize) octets
      rw [inductionHypothesis]
      constructor
      · rintro ⟨others, left⟩
        refine ⟨chars ++ others, ?_⟩
        rw [Utf8.encode_append, ← left]
        exact whole
      · rintro ⟨all, isText⟩
        exact Utf8.exists_of_encode_append (whole.symm.trans isText)
  | case3 octets round error notFull outcome =>
      obtain ⟨chars, whole⟩ := exists_text_of_fill (some chunkSize) octets
      have stops := (Transcoder.converts_fill .utf8 (some chunkSize) octets).stops
      rw [outcome] at stops
      obtain ⟨nonempty, unreadable⟩ := stops.of_ne_outputFull notFull
      constructor
      · nofun
      · rintro ⟨all, isText⟩
        obtain ⟨rest, left⟩ := Utf8.exists_of_encode_append (whole.symm.trans isText)
        rw [left] at nonempty unreadable
        cases rest with
        | nil => exact absurd rfl nonempty
        | cons char rest =>
            have encoded : Charset.utf8.encodeChar? char = some (String.utf8EncodeChar char) := rfl
            rw [Utf8.encode_cons, Charset.first_of_encodeChar? encoded (List.prefix_append _ _)]
              at unreadable
            cases unreadable

/-- What a choice demands of the octets of a text: well-formed UTF-8 of UTF-8 strings, and
characters of the T.61 table of teletex strings unless they are read as ISO 8859-1. -/
def Meets (options : TextOptions) (tag : Tag) (body : Octets) : Prop :=
  (options.validateUtf8 = true → tag = .utf8String → ∃ text, body = Utf8.ofString text) ∧
    (options.teletexAsLatin1 = false → tag = .teletexString →
      ∀ octet ∈ body, T61.isDefined octet = true)

theorem isValid_utf8String_iff {body : Octets} {options : TextOptions} :
    (Text.mk .utf8String body options).isValid = true ↔
      (options.validateUtf8 = true → ∃ text, body = Utf8.ofString text) := by
  unfold isValid
  rw [if_pos rfl, Bool.or_eq_true, checksUtf8_iff]
  cases options.validateUtf8 <;> simp

theorem isValid_teletexString_iff {body : Octets} {options : TextOptions} :
    (Text.mk .teletexString body options).isValid = true ↔
      (options.teletexAsLatin1 = false → ∀ octet ∈ body, T61.isDefined octet = true) := by
  change (options.teletexAsLatin1 || body.all T61.isDefined) = true ↔ _
  rw [Bool.or_eq_true, List.all_eq_true]
  cases options.teletexAsLatin1 <;> simp

theorem isValid_eq_of_other_type {tag : Tag} (notUtf8 : tag ≠ .utf8String)
    (notTeletex : tag ≠ .teletexString) (body : Octets) (options others : TextOptions) :
    (Text.mk tag body options).isValid = (Text.mk tag body others).isValid := by
  simp only [isValid, notUtf8, notTeletex, if_false]

/-- Whether text is valid with other choices is up to what those demand. -/
theorem isValid_iff_meets {tag : Tag} {body : Octets} {options others : TextOptions}
    (valid : (Text.mk tag body options).isValid = true) :
    (Text.mk tag body others).isValid = true ↔ Meets others tag body := by
  by_cases isUtf8 : tag = .utf8String
  · subst isUtf8
    rw [isValid_utf8String_iff, Meets]
    simp
  by_cases isTeletex : tag = .teletexString
  · subst isTeletex
    rw [isValid_teletexString_iff, Meets]
    simp
  · rw [isValid_eq_of_other_type isUtf8 isTeletex body others options]
    refine iff_of_true valid ⟨?_, ?_⟩
    · intro _ same
      exact absurd same isUtf8
    · intro _ same
      exact absurd same isTeletex

end Text

end Asn1
