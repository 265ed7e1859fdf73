import Asn1.Proofs.Toml.Quotation
import Asn1.Toml.Document
import Mathlib.Data.List.TakeWhile

/-!
# Documents with a setting on each line

Lines that set words to texts and to truth values are read as the table with these settings.
-/

namespace Asn1.Toml

/-- A value that is written on the line of its key. -/
inductive Plain where
  | text (content : String)
  | flag (isSet : Bool)

namespace Plain

def chars : Plain → List Char
  | .text content => (quote content).toList
  | .flag true => ['t', 'r', 'u', 'e']
  | .flag false => ['f', 'a', 'l', 's', 'e']

def token : Plain → Token
  | .text content => .string content false
  | .flag isSet => .word (Plain.flag isSet).chars

def written : Plain → Written
  | .text content => .string content
  | .flag isSet => .boolean isSet

def value : Plain → Value
  | .text content => .string content
  | .flag isSet => .boolean isSet

end Plain

/-- The characters of a word, which may stand as a key without quotation marks. -/
def IsBare (chars : List Char) : Prop := chars ≠ [] ∧ ∀ char ∈ chars, Token.isWord char = true

def lineOf (entry : String × Plain) : List Char :=
  entry.1.toList ++ ' ' :: '=' :: ' ' :: (entry.2.chars ++ ['\n'])

namespace Token

variable {first char : Char} {token : Token} {chars rest : List Char}

theorem scan?_single (isSingle : single? first = some token) (rest : List Char) :
    scan? (first :: rest) = (scan? rest).map (token :: ·) := by
  rw [scan?, isSingle]

theorem single?_eq_none (isFirst : isWord first = true) : single? first = none := by
  unfold single?
  split
  all_goals first
    | rfl
    | cases isFirst

theorem isBlank_eq_false (isFirst : isWord first = true) : isBlank first = false := by
  rw [isBlank, decide_eq_false_iff_not]
  rintro (rfl | rfl)
  · cases isFirst
  · cases isFirst

theorem scan?_word (isFirst : isWord first = true) (rest : List Char) :
    scan? (first :: rest) =
      (scan? (rest.dropWhile isWord)).map (word (first :: rest.takeWhile isWord) :: ·) := by
  have notComment : first ≠ '#' := by
    rintro rfl
    cases isFirst
  have notMark : ¬ (first = '"' ∨ first = '\'') := by
    rintro (rfl | rfl)
    · cases isFirst
    · cases isFirst
  have notBlank : ¬ isBlank first = true := by
    rw [isBlank_eq_false isFirst]
    exact Bool.false_ne_true
  rw [scan?, single?_eq_none isFirst]
  dsimp only
  rw [if_neg notComment, if_neg notMark, if_neg notBlank, if_pos isFirst]

/-- A word ends in front of a character that belongs to none. -/
theorem scan?_bare (bare : IsBare chars) (ends : isWord char = false) (rest : List Char) :
    scan? (chars ++ char :: rest) = (scan? (char :: rest)).map (word chars :: ·) := by
  obtain ⟨notEmpty, isWords⟩ := bare
  cases chars with
  | nil => exact absurd rfl notEmpty
  | cons first others =>
      rw [List.forall_mem_cons] at isWords
      rw [List.cons_append, scan?_word isWords.1, List.takeWhile_append_of_pos isWords.2,
        List.dropWhile_append_of_pos isWords.2, List.takeWhile_cons_of_neg (by simp [ends]),
        List.dropWhile_cons_of_neg (by simp [ends]), List.append_nil]

theorem scan?_space (notBlank : isBlank char = false) (rest : List Char) :
    scan? (' ' :: char :: rest) = (scan? (char :: rest)).map (blank [' '] :: ·) := by
  rw [scan?]
  change (scan? ((char :: rest).dropWhile isBlank)).map
    (blank (' ' :: (char :: rest).takeWhile isBlank) :: ·) = _
  rw [List.takeWhile_cons_of_neg (by simp [notBlank]),
    List.dropWhile_cons_of_neg (by simp [notBlank])]

theorem scan?_mark {text after : List Char} {multiline : Bool}
    (isQuoted : quoted? '"' rest = some (text, multiline, after)) :
    scan? ('"' :: rest) = (scan? after).map (string (String.ofList text) multiline :: ·) := by
  rw [scan?]
  split
  next found => cases found
  next =>
    rw [if_neg (by decide), if_pos (.inl rfl)]
    split
    next found =>
      cases isQuoted.symm.trans found
      rfl
    next notFound => cases isQuoted.symm.trans notFound

theorem scan?_quote (text : String) (noMark : rest.head? ≠ some '"') :
    scan? ((quote text).toList ++ rest) = (scan? rest).map (string text false :: ·) := by
  rw [quote, String.toList_ofList, List.cons_append, List.cons_append, List.append_assoc,
    List.cons_append, List.nil_append,
    scan?_mark (quoted?_flatMap_writeChar text.toList noMark), String.ofList_toList]

end Token

open Token

theorem Plain.isBare_flag (isSet : Bool) : IsBare (Plain.flag isSet).chars := by
  unfold IsBare chars
  revert isSet
  decide

theorem Plain.scan?_chars_append (value : Plain) (rest : List Char) :
    scan? (value.chars ++ '\n' :: rest) = (scan? ('\n' :: rest)).map (value.token :: ·) := by
  cases value with
  | text content => exact scan?_quote content (by simp)
  | flag isSet => exact scan?_bare (Plain.isBare_flag isSet) (by decide) rest

theorem Plain.exists_chars_eq_cons (value : Plain) :
    ∃ first rest, value.chars = first :: rest ∧ isBlank first = false := by
  cases value with
  | text content => exact ⟨'"', _, String.toList_ofList, by decide⟩
  | flag isSet =>
      cases isSet with
      | true => exact ⟨'t', _, rfl, by decide⟩
      | false => exact ⟨'f', _, rfl, by decide⟩

def lineTokens (entry : String × Plain) : List Token :=
  [.word entry.1.toList, .blank [' '], .equals, .blank [' '], entry.2.token, .newline]

variable {entry : String × Plain} {entries : List (String × Plain)}

theorem scan?_lineOf_append (bare : IsBare entry.1.toList) (rest : List Char) :
    scan? (lineOf entry ++ rest) = (scan? rest).map (lineTokens entry ++ ·) := by
  obtain ⟨first, others, isChars, notBlank⟩ := entry.2.exists_chars_eq_cons
  have value := entry.2.scan?_chars_append rest
  rw [isChars] at value
  simp only [lineOf, List.append_assoc, List.cons_append, List.nil_append, isChars] at value ⊢
  rw [scan?_bare bare (by decide), scan?_space (by decide), scan?_single rfl,
    scan?_space notBlank, value, scan?_single rfl]
  simp only [Option.map_map]
  rfl

theorem scan?_flatMap_lineOf (bare : ∀ entry ∈ entries, IsBare entry.1.toList) :
    scan? (entries.flatMap lineOf) = some (entries.flatMap lineTokens) := by
  induction entries with
  | nil => rw [List.flatMap_nil, scan?, List.flatMap_nil]
  | cons entry entries inductionHypothesis =>
      rw [List.forall_mem_cons] at bare
      rw [List.flatMap_cons, scan?_lineOf_append bare.1, inductionHypothesis bare.2]
      rfl

theorem foldLineEnds_eq_self {chars : List Char} (noReturn : '\r' ∉ chars) :
    foldLineEnds chars = chars := by
  induction chars with
  | nil => rfl
  | cons char chars inductionHypothesis =>
      rw [List.mem_cons, not_or] at noReturn
      rw [foldLineEnds, inductionHypothesis noReturn.2]
      rintro rest rfl -
      exact noReturn.1 rfl

theorem dropByteOrderMark_eq_self {chars : List Char} (noMark : chars.head? ≠ some '\ufeff') :
    dropByteOrderMark chars = chars := by
  unfold dropByteOrderMark
  split
  · exact absurd rfl noMark
  · rfl

theorem IsBare.not_mem {chars : List Char} {char : Char} (bare : IsBare chars)
    (notWord : isWord char = false) : char ∉ chars := by
  intro membership
  cases notWord.symm.trans (bare.2 char membership)

theorem Plain.not_mem_chars (value : Plain) : '\r' ∉ value.chars := by
  cases value with
  | flag isSet => exact (Plain.isBare_flag isSet).not_mem (by decide)
  | text content =>
      intro membership
      simp only [chars, quote, String.toList_ofList, List.cons_append, List.mem_cons,
        List.mem_append, List.mem_flatMap, List.not_mem_nil, or_false] at membership
      rcases membership with isQuote | ⟨char, -, isWritten⟩ | isQuote
      · cases isQuote
      · cases isPlain_of_mem_writeChar '\r' isWritten
      · cases isQuote

theorem not_mem_lineOf (bare : IsBare entry.1.toList) : '\r' ∉ lineOf entry := by
  have notKey : '\r' ∉ entry.1.toList := bare.not_mem (by decide)
  have notValue := entry.2.not_mem_chars
  simp [lineOf, notKey, notValue]

theorem tokens?_ofList_lines (bare : ∀ entry ∈ entries, IsBare entry.1.toList) :
    tokens? (String.ofList (entries.flatMap lineOf)) = some (entries.flatMap lineTokens) := by
  have noReturn : '\r' ∉ entries.flatMap lineOf := by
    intro membership
    obtain ⟨entry, isEntry, membership⟩ := List.mem_flatMap.mp membership
    exact not_mem_lineOf (bare entry isEntry) membership
  have noMark : (entries.flatMap lineOf).head? ≠ some '\ufeff' := by
    cases entries with
    | nil => simp
    | cons entry entries =>
        obtain ⟨notEmpty, isWords⟩ := bare entry List.mem_cons_self
        obtain ⟨first, others, isKey⟩ := List.exists_cons_of_ne_nil notEmpty
        rw [isKey, List.forall_mem_cons] at isWords
        simp only [List.flatMap_cons, lineOf, isKey, List.cons_append, List.head?_cons]
        intro isMark
        cases isMark
        cases isWords.1
  rw [tokens?, String.toList_ofList, dropByteOrderMark_eq_self noMark,
    foldLineEnds_eq_self noReturn, scan?_flatMap_lineOf bare]

theorem key?_word (name : String) (rest : List Token) :
    key? (.word name.toList :: .blank [' '] :: .equals :: rest) =
      some ([name], .equals :: rest) := by
  rw [key?]
  split
  next notFound => cases notFound
  next other after found =>
    cases found
    split
    next period => cases period
    next =>
      rw [String.ofList_toList]
      rfl

theorem markedWords_newline (rest : List Token) :
    markedWords (.newline :: rest) = ([], .newline :: rest) := by
  unfold markedWords
  split
  next same =>
    cases same
    rfl
  next => rfl

theorem Plain.scalar?_token (value : Plain) (rest : List Token) :
    scalar? (value.token :: .newline :: rest) = some (value.written, .newline :: rest) := by
  cases value with
  | text content => rfl
  | flag isSet =>
      rw [token, scalar?, markedWords_newline]
      cases isSet with
      | true => rfl
      | false => rfl

theorem value?_of_scalar? {tokens : List Token} {read : Written × List Token}
    (found : scalar? tokens = some read) : ∃ shorter, value? tokens = some ⟨read, shorter⟩ := by
  unfold value?
  split
  next => cases found
  next => cases found
  next =>
    split
    next other isOther =>
      cases found.symm.trans isOther
      exact ⟨length_of_scalar? found, rfl⟩
    next notFound => cases found.symm.trans notFound

theorem line?_lineTokens (entry : String × Plain) (rest : List Token) :
    line? (lineTokens entry ++ rest) =
      some (.setting [entry.1] entry.2.written, .newline :: rest) := by
  obtain ⟨shorter, isValue⟩ := value?_of_scalar? (entry.2.scalar?_token rest)
  have isKey : key? (lineTokens entry ++ rest) =
      some ([entry.1], .equals :: .blank [' '] :: entry.2.token :: .newline :: rest) :=
    key?_word entry.1 _
  unfold line?
  split
  next isHeader => cases isHeader
  next isHeader => cases isHeader
  next =>
    rw [isKey]
    dsimp only [skipBlank]
    rw [isValue, Option.map_some]

theorem lines?_lineTokens_append (entry : String × Plain) (rest : List Token) :
    lines? (lineTokens entry ++ rest) =
      (lines? rest).map (.setting [entry.1] entry.2.written :: ·) := by
  have isLine : line? (skipLines (lineTokens entry ++ rest)) =
      some (.setting [entry.1] entry.2.written, .newline :: rest) := line?_lineTokens entry rest
  rw [lines?]
  split
  next empty => cases empty
  next =>
    split
    next notFound => cases isLine.symm.trans notFound
    next line after found =>
      cases isLine.symm.trans found
      rfl

theorem lines?_flatMap_lineTokens (entries : List (String × Plain)) :
    lines? (entries.flatMap lineTokens) =
      some (entries.map fun entry => .setting [entry.1] entry.2.written) := by
  induction entries with
  | nil =>
      rw [lines?]
      rfl
  | cons entry entries inductionHypothesis =>
      rw [List.flatMap_cons, lines?_lineTokens_append, inductionHypothesis]
      rfl

theorem build?_settings (settings : Settings) (entries : List (String × Plain)) :
    build? [] ⟨[], false, settings⟩
        (entries.map fun entry => .setting [entry.1] entry.2.written) =
      Table.ofSettings? (settings ++ entries.map fun entry => (entry.1, entry.2.written)) := by
  induction entries generalizing settings with
  | nil =>
      rw [List.map_nil, List.map_nil, List.append_nil]
      rfl
  | cons entry entries inductionHypothesis =>
      have next := inductionHypothesis (settings ++ [(entry.1, entry.2.written)])
      rw [List.append_assoc] at next
      exact next

theorem entriesOf?_plain (entries : List (String × Plain)) :
    entriesOf? (entries.map fun entry => (entry.1, entry.2.written)) =
      some (entries.map fun entry => (entry.1, entry.2.value)) := by
  induction entries with
  | nil => rfl
  | cons entry entries inductionHypothesis =>
      obtain ⟨key, value⟩ := entry
      rw [List.map_cons, entriesOf?, inductionHypothesis]
      cases value with
      | text content => rfl
      | flag isSet => rfl

theorem ofDateKey?_plain (bare : ∀ entry ∈ entries, IsBare entry.1.toList)
    (value? : Option Value) :
    Value.ofDateKey? (entries.map fun entry => (entry.1, entry.2.written)) value? = value? := by
  cases entries with
  | nil => rfl
  | cons entry entries =>
      -- The reserved key of a date has a character that belongs to no word.
      have notDate : entry.1 ≠ dateKey := by
        intro isDate
        have isBare := bare entry List.mem_cons_self
        rw [isDate] at isBare
        have notWord : '$' ∉ dateKey.toList := isBare.not_mem (by decide)
        exact notWord (by decide)
      rw [List.map_cons]
      exact if_neg notDate

/-- The table of a document that has a setting on each line. -/
theorem parse?_ofList_lines (bare : ∀ entry ∈ entries, IsBare entry.1.toList)
    (distinct : (entries.map Prod.fst).Nodup) :
    parse? (String.ofList (entries.flatMap lineOf)) =
      some (entries.map fun entry => (entry.1, entry.2.value)) := by
  have keys : Table.keys (entries.map fun entry => (entry.1, entry.2.value)) =
      entries.map Prod.fst := by
    rw [Table.keys, List.map_map]
    rfl
  rw [parse?, tokens?_ofList_lines bare, Option.bind_eq_bind, Option.bind_some,
    lines?_flatMap_lineTokens, Option.bind_eq_bind, Option.bind_some, build?_settings,
    List.nil_append, Table.ofSettings?, Value.ofSettings?, ofDateKey?_plain bare,
    entriesOf?_plain, Option.bind_some, Value.ofEntries?, keys, if_pos distinct]

end Asn1.Toml
