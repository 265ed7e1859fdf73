import Asn1.Json
import Asn1.Proofs.Json.Unambiguous
import Mathlib.Data.List.Forall2

/-!
# What documents mean

A document that is built from members means the object with these members, whatever characters
there are in them, and nothing else.
-/

namespace Asn1.Json

theorem charSpelling_escapeChar (char : Char) : CharSpelling char (escapeChar char) := by
  unfold escapeChar
  split_ifs with isQuote isBackslash isNewline isReturn isTab isControl
  · exact .short (by rw [isQuote]; decide)
  · exact .short (by rw [isBackslash]; decide)
  · exact .short (by rw [isNewline]; decide)
  · exact .short (by rw [isReturn]; decide)
  · exact .short (by rw [isTab]; decide)
  · simp only [Unicode.isControl, decide_eq_true_eq] at isControl
    exact .codeUnit ⟨Hex.length_padded (by omega), Toml.hexValue?_padded 4 char.toNat⟩
  · simp only [Unicode.isControl, decide_eq_true_eq] at isControl
    exact .plain (by omega) isQuote isBackslash

theorem charsSpelling_escape (chars : List Char) :
    CharsSpelling chars (chars.flatMap escapeChar ++ ['"']) := by
  induction chars with
  | nil => exact .close
  | cons char chars inductionHypothesis =>
      rw [List.flatMap_cons, List.append_assoc]
      exact .char (charSpelling_escapeChar char) inductionHypothesis

theorem toList_quote (text : String) :
    (quote text).toList = '"' :: (text.toList.flatMap escapeChar ++ ['"']) := by
  simp [quote, escape]

/-- A quoted text is a string that means the text. -/
theorem stringSpelling_quote (text : String) : StringSpelling text (quote text).toList :=
  ⟨_, toList_quote text, charsSpelling_escape text.toList⟩

inductive Bare : String → Data → Prop where
  | null : Bare "null" .null
  | boolean {flag} : Bare (if flag then "true" else "false") (.boolean flag)
  | number {literal} : IsNumber literal.toList → Bare literal (.number literal)

mutual

/-- The member of an object that an entry is meant to be. -/
inductive Entry.IsMember : Entry → String × Data → Prop where
  | string {key value} : IsMember (.string key value) (key, .string value)
  | bare {key text data} : Bare text data → IsMember (.bare key text) (key, data)
  | array {key items data} : List.Forall₂ Entry.IsItem items data →
      IsMember (.array key items) (key, .array data)

/-- The item of an array that an entry is meant to be. -/
inductive Entry.IsItem : Entry → Data → Prop where
  | object {members data} : List.Forall₂ Entry.IsMember members data →
      IsItem (.object members) (.object data)

end

theorem escape_eq_self {text : String} (plain : ∀ char ∈ text.toList, escapeChar char = [char]) :
    escape text = text := by
  have same : text.toList.flatMap escapeChar = text.toList.flatMap fun char => [char] :=
    List.flatMap_congr plain
  rw [escape, same, List.flatMap_singleton', String.ofList_toList]

theorem Bare.spelling {text : String} {data : Data} (bare : Bare text data) :
    escape text = text ∧ data.Spelling text.toList := by
  cases bare with
  | null =>
      rw [Data.Spelling]
      decide
  | @boolean flag =>
      rw [Data.Spelling]
      revert flag
      decide
  | number isNumber =>
      have plain : ∀ char ∈ numberChars, escapeChar char = [char] := by decide
      rw [Data.Spelling]
      exact ⟨escape_eq_self fun char membership => plain char (isNumber.all char membership), rfl,
        isNumber⟩

theorem space_indentation (level : Nat) : Space (indentation level).toList := by
  intro char membership
  simp only [indentation, String.toList_join, List.mem_flatMap] at membership
  obtain ⟨part, isPart, membership⟩ := membership
  rw [List.eq_of_mem_replicate isPart] at membership
  have blanks : ∀ char ∈ "   ".toList, char ∈ spaces := by decide
  exact blanks char membership

theorem Space.append {text rest : List Char} (space : Space text) (space' : Space rest) :
    Space (text ++ rest) :=
  List.forall_mem_append.mpr ⟨space, space'⟩

theorem space_newline : Space ['\n'] := by
  rw [Space]
  decide

/-- An entry that is laid out on a level is a part of a series behind its indentation. -/
def RendersAs (level : Nat) (part : List Char → Prop) (entry : Entry) : Prop :=
  ∃ inner, (entry.render level).toList = (indentation level).toList ++ inner ∧ part inner

theorem further_of_series {part : List Char → Prop} {parts : List (List Char → Prop)}
    {text : List Char} (series : Series (part :: parts) text) :
    Further (part :: parts) (',' :: text) := by
  obtain ⟨first, rest, rfl, isFirst, isRest⟩ := series
  exact ⟨first, rest, rfl, isFirst, isRest⟩

/-- Entries that are laid out one below the other are a series. -/
theorem series_renderAll {level : Nat} {parts : List (List Char → Prop)} {entries : List Entry}
    (each : List.Forall₂ (RendersAs level) parts entries) {before after : List Char}
    (isBefore : Space before) (isAfter : Space after) :
    Series parts (before ++ (renderAll level entries).toList ++ after) := by
  induction each generalizing before with
  | nil =>
      rw [renderAll, Series]
      exact (isBefore.append (by nofun)).append isAfter
  | @cons part entry parts entries first others inductionHypothesis =>
      obtain ⟨inner, rendered, isPart⟩ := first
      have isLead := isBefore.append (space_indentation level)
      cases others with
      | nil =>
          refine ⟨before ++ (renderAll level [entry]).toList ++ after, [], by simp, ?_, rfl⟩
          refine ⟨_, inner, '\n' :: after, ?_, isLead, isPart, space_newline.append isAfter⟩
          simp [renderAll, rendered]
      | @cons _ next _ later =>
          have behind := further_of_series (inductionHypothesis space_newline)
          refine ⟨before ++ (indentation level).toList ++ inner, _, ?_,
            ⟨_, inner, [], (List.append_nil _).symm, isLead, isPart, nofun⟩, behind⟩
          simp [renderAll, rendered]

/-- A property of all entries follows from that of what they are made up of. -/
@[elab_as_elim]
theorem Entry.induction {motive : Entry → Prop} (string : ∀ key value, motive (.string key value))
    (bare : ∀ key text, motive (.bare key text))
    (array : ∀ key items, (∀ item ∈ items, motive item) → motive (.array key items))
    (object : ∀ members, (∀ member ∈ members, motive member) → motive (.object members))
    (entry : Entry) : motive entry := by
  refine @Entry.rec motive (fun entries => ∀ entry ∈ entries, motive entry)
    string bare array object ?_ ?_ entry
  · intro entry membership
    cases membership
  · intro head tail ofHead ofTail entry membership
    rcases List.mem_cons.mp membership with rfl | membership
    · exact ofHead
    · exact ofTail entry membership

theorem memberSpelling_quote {key : String} {value : List Char → Prop} {text : List Char}
    (isValue : value text) :
    MemberSpelling key value ((quote key).toList ++ ':' :: ' ' :: text) := by
  refine ⟨_, [], [' '], text, ?_, stringSpelling_quote key, nofun, ?_, isValue⟩
  · simp
  · rw [Space]
    decide

theorem forall₂_rendersAs {Meaning : Type} {spelling : Meaning → List Char → Prop}
    {isMeant : Entry → Meaning → Prop} {level : Nat} {entries : List Entry}
    {meanings : List Meaning} (each : List.Forall₂ isMeant entries meanings)
    (renders : ∀ entry ∈ entries, ∀ {meaning}, isMeant entry meaning →
      RendersAs level (spelling meaning) entry) :
    List.Forall₂ (RendersAs level) (meanings.map spelling) entries := by
  induction each with
  | nil => exact .nil
  | cons first _ inductionHypothesis =>
      rw [List.forall_mem_cons] at renders
      exact .cons (renders.1 first) (inductionHypothesis renders.2)

theorem spelling_string (text : String) : (Data.string text).Spelling (quote text).toList := by
  rw [Data.Spelling]
  exact stringSpelling_quote text

theorem spelling_array {items : List Data} {inner : List Char}
    (series : Series (items.map Data.Spelling) inner) :
    (Data.array items).Spelling ('[' :: inner ++ [']']) := by
  rw [Data.Spelling]
  exact ⟨inner, rfl, series⟩

theorem spelling_object {members : List (String × Data)} {inner : List Char}
    (series : Series
      (members.map fun member => MemberSpelling member.1 member.2.Spelling) inner) :
    (Data.object members).Spelling ('\x7b' :: inner ++ ['\x7d']) := by
  rw [Data.Spelling]
  exact ⟨inner, rfl, series⟩

/-- Entries are laid out as members and items that mean what the entries are meant to be. -/
theorem Entry.rendersAs (entry : Entry) :
    (∀ {member} level, entry.IsMember member →
      RendersAs level (MemberSpelling member.1 member.2.Spelling) entry) ∧
    (∀ {data} level, entry.IsItem data → RendersAs level data.Spelling entry) := by
  induction entry using Entry.induction with
  | string key value =>
      refine ⟨?_, nofun⟩
      rintro _ level ⟨⟩
      refine ⟨_, ?_, memberSpelling_quote (spelling_string value)⟩
      simp [render, label]
  | bare key text =>
      refine ⟨?_, nofun⟩
      rintro _ level (_ | isBare | _)
      obtain ⟨same, isBare⟩ := isBare.spelling
      refine ⟨_, ?_, memberSpelling_quote isBare⟩
      simp [render, label, same]
  | array key items inductionHypothesis =>
      refine ⟨?_, nofun⟩
      rintro _ level (_ | _ | @⟨_, _, data, each⟩)
      have series := series_renderAll
        (forall₂_rendersAs each fun item membership _ =>
          (inductionHypothesis item membership).2 (level + 1))
        space_newline (space_indentation level)
      refine ⟨_, ?_, memberSpelling_quote (spelling_array series)⟩
      simp [render, label]
  | object members inductionHypothesis =>
      refine ⟨nofun, ?_⟩
      rintro _ level @⟨_, data, each⟩
      have series := series_renderAll
        (forall₂_rendersAs each fun member membership _ =>
          (inductionHypothesis member membership).1 (level + 1))
        space_newline (space_indentation level)
      refine ⟨_, ?_, spelling_object series⟩
      simp [render]

/-- A document is a text for the object that its entries are meant to make up. -/
theorem spelling_document {entries : List Entry} {data : Data}
    (isObject : (Entry.object entries).IsItem data) :
    data.Spelling (document entries).toList := by
  obtain ⟨inner, rendered, spelled⟩ := (Entry.object entries).rendersAs.2 0 isObject
  rw [document, rendered]
  exact spelled

theorem denotes_of_spelling {text : String} {data : Data} (spelled : data.Spelling text.toList)
    (after : String) (space : Space after.toList) : Denotes (text ++ after) data := by
  refine ⟨[], text.toList, after.toList, ?_, nofun, spelled, space⟩
  rw [String.toList_append, List.nil_append]

end Asn1.Json
