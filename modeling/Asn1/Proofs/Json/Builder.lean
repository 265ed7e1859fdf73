import Asn1.Json.Builder
import Asn1.Proofs.Json.Document
import Asn1.Proofs.Unicode.Control
import Mathlib.Data.List.TakeWhile

/-!
# Documents built call by call

What a builder has written behind an entry is the entry as it is laid out, so a document that is
built call by call is the document of the calls. It means the object that they are made up of.
-/

namespace Asn1.Json

/-- Each quotation mark stands behind a backslash that belongs to it, and no backslash is left over
at the end. -/
inductive Guarded : List Char → Prop
  | nil : Guarded []
  | plain {char rest} : char ≠ '"' → char ≠ '\\' → Guarded rest → Guarded (char :: rest)
  | escaped {char rest} : Guarded rest → Guarded ('\\' :: char :: rest)

theorem escapeChar_of_isPlain {char : Char} (plain : isPlain char = true) :
    escapeChar char = [char] := by
  simp only [isPlain, Bool.and_eq_true, decide_eq_true_eq, Bool.not_eq_true'] at plain
  obtain ⟨⟨notQuote, notBackslash⟩, notControl⟩ := plain
  have notShort : ∀ short ∈ ['\n', '\r', '\t'], char ≠ short := by
    rintro short isShort rfl
    have controls : ∀ short ∈ ['\n', '\r', '\t'], Unicode.isControl short = true := by decide
    rw [controls char isShort] at notControl
    cases notControl
  simp only [List.forall_mem_cons] at notShort
  simp [escapeChar, notQuote, notBackslash, notShort, notControl]

/-- Starting again behind each special character escapes each character by itself. -/
theorem escapeRuns_eq (chars : List Char) : escapeRuns chars = chars.flatMap escapeChar := by
  fun_induction escapeRuns chars with
  | case1 chars inductionHypothesis =>
      have plain : ∀ char ∈ chars.takeWhile isPlain, escapeChar char = [char] := fun char isFirst =>
        escapeChar_of_isPlain (List.mem_takeWhile_imp isFirst)
      have front : (chars.takeWhile isPlain).flatMap escapeChar = chars.takeWhile isPlain :=
        (List.flatMap_congr plain).trans (List.flatMap_singleton' _)
      conv_rhs =>
        rw [← List.takeWhile_append_dropWhile (p := isPlain) (l := chars), List.flatMap_append,
          front]
      congr 1
      split
      next done => rw [done, List.flatMap_nil]
      next special rest found =>
        rw [inductionHypothesis special rest found, found, List.flatMap_cons]

theorem escapePart_eq (part : String) : escapePart part = escape part := by
  rw [escapePart, escapeRuns_eq, escape]

/-- The parts of a text may be escaped one by one. -/
theorem join_map_escapePart (parts : List String) :
    String.join (parts.map escapePart) = escape (String.join parts) := by
  apply String.toList_injective
  induction parts with
  | nil => rfl
  | cons part parts inductionHypothesis =>
      simp only [escape, String.toList_join, String.toList_ofList] at inductionHypothesis ⊢
      rw [List.map_cons, List.flatMap_cons, inductionHypothesis, List.flatMap_cons,
        List.flatMap_append, escapePart_eq, escape, String.toList_ofList]

theorem Guarded.append {front back : List Char} (isFront : Guarded front) (isBack : Guarded back) :
    Guarded (front ++ back) := by
  induction isFront with
  | nil => exact isBack
  | plain notQuote notBackslash _ inductionHypothesis =>
      exact .plain notQuote notBackslash inductionHypothesis
  | escaped _ inductionHypothesis => exact .escaped inductionHypothesis

theorem guarded_of_forall_mem {chars : List Char}
    (each : ∀ char ∈ chars, char ≠ '"' ∧ char ≠ '\\') : Guarded chars := by
  induction chars with
  | nil => exact .nil
  | cons char chars inductionHypothesis =>
      rw [List.forall_mem_cons] at each
      exact .plain each.1.1 each.1.2 (inductionHypothesis each.2)

theorem guarded_escapeChar (char : Char) : Guarded (escapeChar char) := by
  unfold escapeChar
  split_ifs with isQuote isBackslash
  · exact .escaped .nil
  · exact .escaped .nil
  · exact .escaped .nil
  · exact .escaped .nil
  · exact .escaped .nil
  · exact .escaped (guarded_of_forall_mem (Hex.forall_mem_padded (by decide) 4 char.toNat))
  · exact .plain isQuote isBackslash .nil

theorem isControl_of_mem_escapeChar (char : Char) :
    ∀ other ∈ escapeChar char, Unicode.isControl other = false := by
  unfold escapeChar
  split_ifs with _ _ _ _ _ isControl
  · decide
  · decide
  · decide
  · decide
  · decide
  · exact List.forall_mem_append.mpr ⟨by decide, Hex.forall_mem_padded (by decide) 4 char.toNat⟩
  · rw [List.forall_mem_singleton]
    exact eq_false_of_ne_true isControl

theorem guarded_escape (text : String) : Guarded (escape text).toList := by
  rw [escape, String.toList_ofList]
  induction text.toList with
  | nil => exact .nil
  | cons char chars inductionHypothesis =>
      rw [List.flatMap_cons]
      exact (guarded_escapeChar char).append inductionHypothesis

theorem noControl_escape (text : String) : Unicode.NoControl (escape text) := by
  apply Unicode.noControl_ofList
  intro other membership
  obtain ⟨char, -, escaped⟩ := List.mem_flatMap.mp membership
  exact isControl_of_mem_escapeChar char other escaped

/-- Text that is escaped is a string that means the text and nothing else. -/
theorem charsSpelling_escape_iff {text : String} {chars : List Char} :
    CharsSpelling chars ((escape text).toList ++ ['"']) ↔ chars = text.toList := by
  have spelled : CharsSpelling text.toList ((escape text).toList ++ ['"']) := by
    rw [escape, String.toList_ofList]
    exact charsSpelling_escape text.toList
  constructor
  · intro other
    have same : (escape text).toList ++ ['"'] ++ [] = (escape text).toList ++ ['"'] ++ [] := rfl
    exact (other.settled spelled same).1
  · rintro rfl
    exact spelled

namespace Builder

variable {builder : Builder}

/-- The text behind which the next entry of a level is written. -/
def ready (builder : Builder) : String := builder.separate.target

/-- A builder after an entry that was written behind everything else. -/
def written (builder : Builder) (text : String) : Builder :=
  { target := builder.ready ++ text, level := builder.level, isEmpty := false }

theorem written_written (builder : Builder) (text next : String) :
    (builder.written text).written next = builder.written (text ++ ",\n" ++ next) := by
  simp [written, ready, separate, push, String.append_assoc]

theorem push_written (builder : Builder) (text more : String) :
    (builder.written text).push more = builder.written (text ++ more) := by
  simp [written, push, String.append_assoc]

theorem indent_written (builder : Builder) (text : String) :
    (builder.written text).indent = builder.written (text ++ indentation builder.level) :=
  push_written builder text _

theorem pushQuoted_written (builder : Builder) (text string : String) :
    (builder.written text).pushQuoted string = builder.written (text ++ quote string) := by
  rw [pushQuoted, push_written, push_written, push_written, escapePart_eq, quote,
    String.append_assoc, String.append_assoc, String.append_assoc]

theorem separate_eq (builder : Builder) : builder.separate = builder.written "" := by
  rw [written, ready, String.append_empty]
  cases first : builder.isEmpty <;> simp [separate, push, first]

theorem pushKey_eq (builder : Builder) (key : String) :
    builder.pushKey key = builder.written (label builder.level key) := by
  rw [pushKey, separate_eq, indent_written, pushQuoted_written, push_written, String.empty_append,
    label]

/-- A call writes its entry and nothing else. -/
def Lays (entry : Entry) : Prop :=
  ∀ builder : Builder, builder.add entry = builder.written (entry.render builder.level)

theorem exists_addAll_cons {entry : Entry} {entries : List Entry}
    (each : ∀ other ∈ entry :: entries, Lays other) (builder : Builder) :
    ∃ text, builder.addAll (entry :: entries) = builder.written text ∧
      text ++ "\n" = renderAll builder.level (entry :: entries) := by
  -- The line of the last entry is not ended by the calls, so the text lacks a line end.
  rw [List.forall_mem_cons] at each
  induction entries generalizing entry builder with
  | nil => exact ⟨_, each.1 builder, rfl⟩
  | cons next entries inductionHypothesis =>
      obtain ⟨text, added, ends⟩ := inductionHypothesis (List.forall_mem_cons.mp each.2)
        (builder.written (entry.render builder.level))
      refine ⟨entry.render builder.level ++ ",\n" ++ text, ?_, ?_⟩
      · rw [addAll, each.1, added, written_written]
      · rw [String.append_assoc, ends]
        rfl

theorem nested_written {entries : List Entry} (each : ∀ entry ∈ entries, Lays entry)
    (builder : Builder) (text : String) :
    ((builder.written text).nested fun inner => inner.addAll entries) =
      builder.written (text ++ renderAll (builder.level + 1) entries) := by
  cases entries with
  | nil => simp [nested, addAll, renderAll, written]
  | cons entry entries =>
      obtain ⟨inner, added, ends⟩ := exists_addAll_cons each
        { target := (builder.written text).target, level := (builder.written text).level + 1 }
      have target_eq : text ++ renderAll (builder.level + 1) (entry :: entries) =
          text ++ inner ++ "\n" := by
        rw [String.append_assoc, ends]
        rfl
      rw [target_eq, nested, added]
      simp [written, ready, separate, String.append_assoc]

/-- Every call writes its entry, however deep calls are nested in it. -/
theorem lays (entry : Entry) : Lays entry := by
  induction entry using Entry.induction with
  | string key value =>
      intro builder
      rw [add, pushKey_eq, pushQuoted_written, Entry.render]
  | bare key value =>
      intro builder
      rw [add, pushKey_eq, push_written, escapePart_eq, Entry.render]
  | array key items inductionHypothesis =>
      intro builder
      rw [add, pushKey_eq, push_written, nested_written inductionHypothesis, indent_written,
        push_written, Entry.render]
  | object members inductionHypothesis =>
      intro builder
      rw [add, separate_eq, indent_written, push_written, nested_written inductionHypothesis,
        indent_written, push_written, String.empty_append, Entry.render]

theorem build_eq (members : List Entry) : build members = document members := by
  rw [build, lays]
  exact String.empty_append

example : build [.array "items" [.object [], .object [.string "a\"" "b"]], .array "none" []] =
    "\x7b\n   \"items\": [\n      \x7b\n      \x7d,\n      \x7b\n         \"a\\\"\": \"b\"\n"
      ++ "      \x7d\n   ],\n   \"none\": [\n   ]\n\x7d" := by
  rw [build_eq]
  rfl

end Builder

mutual

inductive Entry.InObject : Entry → Prop where
  | string {key value} : InObject (.string key value)
  | bare {key text data} : Bare text data → InObject (.bare key text)
  | array {key items} : (∀ item ∈ items, Entry.InArray item) → InObject (.array key items)

inductive Entry.InArray : Entry → Prop where
  | object {members} : (∀ member ∈ members, Entry.InObject member) → InArray (.object members)

end

theorem exists_forall₂ {α β : Type} {related : α → β → Prop} {items : List α}
    (each : ∀ item ∈ items, ∃ other, related item other) :
    ∃ others, List.Forall₂ related items others := by
  induction items with
  | nil => exact ⟨[], .nil⟩
  | cons item items inductionHypothesis =>
      rw [List.forall_mem_cons] at each
      obtain ⟨other, first⟩ := each.1
      obtain ⟨others, later⟩ := inductionHypothesis each.2
      exact ⟨other :: others, .cons first later⟩

/-- Entries in their places are meant to be a member or an item. -/
theorem Entry.exists_meaning (entry : Entry) :
    (entry.InObject → ∃ member, entry.IsMember member) ∧
      (entry.InArray → ∃ data, entry.IsItem data) := by
  induction entry using Entry.induction with
  | string key value => exact ⟨fun _ => ⟨_, .string⟩, nofun⟩
  | bare key text =>
      refine ⟨?_, nofun⟩
      rintro (_ | isBare | _)
      exact ⟨_, .bare isBare⟩
  | array key items inductionHypothesis =>
      refine ⟨?_, nofun⟩
      rintro (_ | _ | each)
      obtain ⟨data, isArray⟩ := exists_forall₂ fun item membership =>
        (inductionHypothesis item membership).2 (each item membership)
      exact ⟨_, .array isArray⟩
  | object members inductionHypothesis =>
      refine ⟨nofun, ?_⟩
      rintro ⟨each⟩
      obtain ⟨data, isObject⟩ := exists_forall₂ fun member membership =>
        (inductionHypothesis member membership).1 (each member membership)
      exact ⟨_, .object isObject⟩

/-- However calls are nested, what is built is the text of one object, made up of what was called
for in the order of the calls, and of nothing else. A text is read back from its escapes, which have
no control character and no quotation mark that could end a string, and may be escaped part by
part. -/
theorem build_means_calls :
    (∀ entries : List Entry, (∀ entry ∈ entries, entry.InObject) →
      ∃ data, (Entry.object entries).IsItem data) ∧
    (∀ entries data, (Entry.object entries).IsItem data →
      data.Spelling (Builder.build entries).toList ∧
        ∀ other, Denotes (Builder.build entries) other ↔ other = data) ∧
    (∀ entries, Builder.build entries = document entries) ∧
    (∀ text, (∀ chars, CharsSpelling chars ((escape text).toList ++ ['"']) ↔ chars = text.toList) ∧
      Guarded (escape text).toList ∧ Unicode.NoControl (escape text)) ∧
    ∀ parts, String.join (parts.map escapePart) = escape (String.join parts) := by
  refine ⟨fun entries each => (Entry.exists_meaning _).2 (.object each), ?_, Builder.build_eq, ?_,
    join_map_escapePart⟩
  · intro entries data isItem
    have spelled := spelling_document isItem
    rw [Builder.build_eq]
    refine ⟨spelled, fun other => ?_⟩
    have denotes := denotes_of_spelling spelled "" nofun
    rw [String.append_empty] at denotes
    constructor
    · intro denoted
      exact denoted.unique denotes
    · rintro rfl
      exact denotes
  · intro text
    exact ⟨fun chars => charsSpelling_escape_iff, guarded_escape text, noControl_escape text⟩

/-- A number, an array of an object without members and one with a member, and an empty array. -/
theorem build_means_nested_calls :
    let entries : List Entry :=
      [.bare "length" "2", .array "elements" [.object [], .object [.string "type" "Null"]],
        .array "empty" []]
    let data : Data :=
      .object [("length", .number "2"),
        ("elements", .array [.object [], .object [("type", .string "Null")]]),
        ("empty", .array [])]
    (∀ entry ∈ entries, entry.InObject) ∧
      (∃ meant, (Entry.object entries).IsItem meant) ∧
      (Entry.object entries).IsItem data ∧
      ∀ other, Denotes (Builder.build entries) other ↔ other = data := by
  intro entries data
  have isNumber : IsNumber "2".toList := by
    refine ⟨[], ['2'], [], [], rfl, .inl rfl, ⟨⟨nofun, ?_⟩, nofun⟩, .inl rfl, .inl rfl⟩
    decide
  have isItem : (Entry.object entries).IsItem data :=
    .object (.cons (.bare (.number isNumber))
      (.cons (.array (.cons (.object .nil) (.cons (.object (.cons .string .nil)) .nil)))
        (.cons (.array .nil) .nil)))
  have inObject : ∀ entry ∈ entries, entry.InObject := by
    simp only [entries, List.forall_mem_cons]
    refine ⟨.bare (.number isNumber), .array ?_, .array nofun, nofun⟩
    simp only [List.forall_mem_cons]
    refine ⟨.object nofun, .object ?_, nofun⟩
    simp only [List.forall_mem_cons]
    exact ⟨.string, nofun⟩
  have ⟨exists_meaning, means, _⟩ := build_means_calls
  exact ⟨inObject, exists_meaning entries inObject, isItem, (means entries data isItem).2⟩

end Asn1.Json
