import Asn1.Proofs.Json.Grammar
import Asn1.Proofs.Numeral

/-!
# JSON is unambiguous

A text has one meaning. Parts of documents are read from the front: what a part is and where it
ends is settled by the part itself, only numbers also need to know that no further digit follows.
-/

namespace Asn1.Json

variable {text text' rest rest' : List Char}

/-- What comes first is settled if all of its characters have a property that the next one does not
have. -/
theorem eq_of_append_eq {property : Char → Prop} (all : ∀ char ∈ text, property char)
    (all' : ∀ char ∈ text', property char) (stops : ∀ char ∈ rest.head?, ¬ property char)
    (stops' : ∀ char ∈ rest'.head?, ¬ property char) (same : text ++ rest = text' ++ rest') :
    text = text' ∧ rest = rest' := by
  induction text generalizing text' with
  | nil =>
      cases text' with
      | nil => exact ⟨rfl, same⟩
      | cons char chars =>
          rw [List.nil_append] at same
          rw [same] at stops
          exact absurd (all' char List.mem_cons_self) (stops char rfl)
  | cons char chars inductionHypothesis =>
      cases text' with
      | nil =>
          rw [List.nil_append] at same
          rw [← same] at stops'
          exact absurd (all char List.mem_cons_self) (stops' char rfl)
      | cons other others =>
          obtain ⟨rfl, tails⟩ := List.cons.inj same
          obtain ⟨rfl, rfl⟩ := inductionHypothesis (List.forall_mem_cons.mp all).2
            (List.forall_mem_cons.mp all').2 tails
          exact ⟨rfl, rfl⟩

/-- The characters that may stand behind a value. None of them starts one. -/
def closers : List Char := spaces ++ [',', ']', '\x7d']

/-- Nothing stands here that could go on with a value. -/
def Ends (rest : List Char) : Prop := ∀ char ∈ rest.head?, char ∈ closers

/-- Here starts a value or a name. -/
def Starts (text : List Char) : Prop := ∃ char rest, text = char :: rest ∧ char ∉ closers

/-- What is written with this meaning is read with no other one, and no further. -/
def Settled {Meaning : Type} (spelling : Meaning → List Char → Prop) (ends : List Char → Prop)
    (meaning : Meaning) : Prop :=
  ∀ ⦃other text text' rest rest'⦄, spelling meaning text → spelling other text' →
    ends rest → ends rest' → text ++ rest = text' ++ rest' → meaning = other ∧ rest = rest'

/-- Reads a character of a string. What is not one is read in any way. -/
def char? : List Char → Option (Char × List Char)
  | '\\' :: 'u' :: rest => do
      let codeUnit ← Toml.hexValue? 0 (rest.take 4)
      if 0xd800 ≤ codeUnit ∧ codeUnit < 0xe000 then
        let low ← Toml.hexValue? 0 ((rest.drop 6).take 4)
        some (Char.ofNat (0x10000 + (codeUnit - 0xd800) * 0x400 + (low - 0xdc00)), rest.drop 10)
      else
        some (Char.ofNat codeUnit, rest.drop 4)
  | '\\' :: letter :: rest => (shortEscapes.lookup letter).map fun char => (char, rest)
  | char :: rest => some (char, rest)
  | [] => none

theorem lookup_of_mem_shortEscapes : ∀ escape ∈ shortEscapes,
    escape.1 ≠ 'u' ∧ shortEscapes.lookup escape.1 = some escape.2 := by
  decide

theorem not_isSurrogate (char : Char) : char.toNat < 0xd800 ∨ 0xe000 ≤ char.toNat := by
  have valid : char.val.toNat < 0xd800 ∨ 0xdfff < char.val.toNat ∧ char.val.toNat < 0x110000 :=
    char.valid
  change char.val.toNat < 0xd800 ∨ 0xe000 ≤ char.val.toNat
  omega

theorem UnitSpelling.hexValue?_take {codeUnit : Nat} {digits : List Char}
    (spelled : UnitSpelling codeUnit digits) (rest : List Char) :
    Toml.hexValue? 0 ((digits ++ rest).take 4) = some codeUnit := by
  rw [← spelled.1, List.take_left]
  exact spelled.2

theorem UnitSpelling.drop_append {codeUnit : Nat} {digits : List Char}
    (spelled : UnitSpelling codeUnit digits) (rest : List Char) (count : Nat) :
    (digits ++ rest).drop (4 + count) = rest.drop count := by
  rw [← spelled.1, List.drop_length_add_append]

theorem CharSpelling.char?_append {char : Char} (spelled : CharSpelling char text)
    (rest : List Char) : char? (text ++ rest) = some (char, rest) := by
  cases spelled with
  | plain _ _ notBackslash =>
      rw [List.singleton_append]
      unfold char?
      grind
  | @short letter isShort =>
      obtain ⟨notUnit, found⟩ := lookup_of_mem_shortEscapes _ isShort
      rw [List.cons_append, List.singleton_append]
      unfold char?
      grind
  | @codeUnit digits spelled =>
      have noSurrogate := not_isSurrogate char
      rw [List.cons_append, List.cons_append, char?, spelled.hexValue?_take]
      simp only [Option.bind_eq_bind, Option.bind_some]
      rw [if_neg (by omega), Char.ofNat_toNat, spelled.drop_append rest 0]
      rfl
  | @pair high low digits others highLow highHigh lowLow lowHigh first second value =>
      simp only [List.append_assoc, List.cons_append]
      rw [char?, first.hexValue?_take]
      simp only [Option.bind_eq_bind, Option.bind_some]
      rw [if_pos (by omega), first.drop_append _ 2, first.drop_append _ 6]
      simp only [List.drop_succ_cons, List.drop_zero]
      rw [second.hexValue?_take, second.drop_append rest 0, Option.bind_some, ← value,
        Char.ofNat_toNat]
      rfl

theorem CharSpelling.settled {char other : Char} (spelled : CharSpelling char text)
    (spelled' : CharSpelling other text') (same : text ++ rest = text' ++ rest') :
    char = other ∧ rest = rest' := by
  have read := spelled.char?_append rest
  rw [same, spelled'.char?_append, Option.some.injEq, Prod.mk.injEq] at read
  exact ⟨read.1.symm, read.2.symm⟩

theorem CharSpelling.ne_quote {char : Char} (spelled : CharSpelling char text) :
    ∃ lead rest, text = lead :: rest ∧ lead ≠ '"' := by
  cases spelled with
  | plain _ notQuote _ => exact ⟨_, _, rfl, notQuote⟩
  | short => exact ⟨_, _, rfl, by decide⟩
  | codeUnit => exact ⟨_, _, rfl, by decide⟩
  | pair => exact ⟨_, _, rfl, by decide⟩

theorem CharsSpelling.settled {chars others : List Char} (spelled : CharsSpelling chars text)
    (spelled' : CharsSpelling others text') (same : text ++ rest = text' ++ rest') :
    chars = others ∧ rest = rest' := by
  induction spelled generalizing others text' with
  | close =>
      cases spelled' with
      | close => exact ⟨rfl, (List.cons.inj same).2⟩
      | char first _ =>
          obtain ⟨lead, _, rfl, notQuote⟩ := first.ne_quote
          exact absurd (List.cons.inj same).1.symm notQuote
  | char first _ inductionHypothesis =>
      cases spelled' with
      | close =>
          obtain ⟨lead, _, rfl, notQuote⟩ := first.ne_quote
          exact absurd (List.cons.inj same).1 notQuote
      | char first' later' =>
          rw [List.append_assoc, List.append_assoc] at same
          obtain ⟨rfl, left⟩ := first.settled first' same
          obtain ⟨rfl, rfl⟩ := inductionHypothesis later' left
          exact ⟨rfl, rfl⟩

theorem stringSpelling_settled (string : String) :
    Settled StringSpelling (fun _ => True) string := by
  rintro other _ _ rest rest' ⟨inner, rfl, spelled⟩ ⟨inner', rfl, spelled'⟩ _ _ same
  obtain ⟨sameChars, rfl⟩ := spelled.settled spelled' (List.cons.inj same).2
  exact ⟨String.toList_injective sameChars, rfl⟩

theorem StringSpelling.starts {string : String} (spelled : StringSpelling string text) :
    Starts text := by
  obtain ⟨inner, rfl, -⟩ := spelled
  exact ⟨_, _, rfl, by decide⟩

theorem Starts.append (starts : Starts text) (rest : List Char) : Starts (text ++ rest) := by
  obtain ⟨char, later, rfl, notCloser⟩ := starts
  exact ⟨char, later ++ rest, rfl, notCloser⟩

theorem Starts.not_space (starts : Starts text) : ∀ char ∈ text.head?, char ∉ spaces := by
  obtain ⟨char, later, rfl, notCloser⟩ := starts
  rintro _ ⟨⟩ isSpace
  exact notCloser (List.mem_append_left _ isSpace)

theorem Ends.space_append {space : List Char} (isSpace : Space space) (ends : Ends rest) :
    Ends (space ++ rest) := by
  cases space with
  | nil => exact ends
  | cons char chars =>
      rintro _ ⟨⟩
      exact List.mem_append_left _ (isSpace char List.mem_cons_self)

/-- White space up to where no more of it follows is settled. -/
theorem Space.settled (space : Space text) (space' : Space text')
    (stops : ∀ char ∈ rest.head?, char ∉ spaces) (stops' : ∀ char ∈ rest'.head?, char ∉ spaces)
    (same : text ++ rest = text' ++ rest') : rest = rest' :=
  (eq_of_append_eq space space' stops stops' same).2

/-- Nothing stands here that could go on with a part of a series. -/
def Delimited (rest : List Char) : Prop := ∀ char ∈ rest.head?, char ∈ [',', ']', '\x7d']

theorem Delimited.ends (delimited : Delimited rest) : Ends rest := by
  intro char isHead
  exact List.mem_append_right _ (delimited char isHead)

theorem Delimited.not_space (delimited : Delimited rest) : ∀ char ∈ rest.head?, char ∉ spaces := by
  intro char isHead
  have distinct : ∀ delimiter ∈ [',', ']', '\x7d'], delimiter ∉ spaces := by decide
  exact distinct char (delimited char isHead)

theorem delimited_close {close : Char} (closes : close ∈ [']', '\x7d']) :
    Delimited (close :: rest) := by
  rintro _ ⟨⟩
  exact List.mem_cons_of_mem _ closes

theorem Further.delimited {parts : List (List Char → Prop)} (further : Further parts text)
    {close : Char} (closes : close ∈ [']', '\x7d']) : Delimited (text ++ close :: rest) := by
  cases parts with
  | nil =>
      cases further
      exact delimited_close closes
  | cons part parts =>
      obtain ⟨first, later, rfl, -⟩ := further
      rintro _ ⟨⟩
      exact List.mem_cons_self

theorem ne_comma_of_closes : ∀ {close : Char}, close ∈ [']', '\x7d'] → close ≠ ',' := by
  decide

section Series

variable {Meaning : Type} {spelling : Meaning → List Char → Prop}
  (starts : ∀ ⦃meaning text⦄, spelling meaning text → Starts text)

include starts

theorem padded_settled {meaning other : Meaning} (settled : Settled spelling Ends meaning)
    (spelled : Padded (spelling meaning) text) (spelled' : Padded (spelling other) text')
    (delimited : Delimited rest) (delimited' : Delimited rest')
    (same : text ++ rest = text' ++ rest') : meaning = other ∧ rest = rest' := by
  obtain ⟨before, inner, after, rfl, isBefore, isInner, isAfter⟩ := spelled
  obtain ⟨before', inner', after', rfl, isBefore', isInner', isAfter'⟩ := spelled'
  simp only [List.append_assoc] at same
  have fromInner := isBefore.settled isBefore' ((starts isInner).append _).not_space
    ((starts isInner').append _).not_space same
  obtain ⟨rfl, fromAfter⟩ := settled isInner isInner' (delimited.ends.space_append isAfter)
    (delimited'.ends.space_append isAfter') fromInner
  exact ⟨rfl, isAfter.settled isAfter' delimited.not_space delimited'.not_space fromAfter⟩

variable {close : Char} (closes : close ∈ [']', '\x7d'])

include closes

theorem further_settled {meanings others : List Meaning}
    (settled : ∀ meaning ∈ meanings, Settled spelling Ends meaning)
    (further : Further (meanings.map spelling) text)
    (further' : Further (others.map spelling) text')
    (same : text ++ close :: rest = text' ++ close :: rest') :
    meanings = others ∧ rest = rest' := by
  -- Only a comma goes on with a series, so that both of them are closed in the same place.
  have notComma : close ≠ ',' := ne_comma_of_closes closes
  induction meanings generalizing others text text' with
  | nil =>
      cases further
      cases others with
      | nil =>
          cases further'
          exact ⟨rfl, (List.cons.inj same).2⟩
      | cons other others =>
          obtain ⟨first, later, rfl, -⟩ := further'
          exact absurd (List.cons.inj same).1 notComma
  | cons meaning meanings inductionHypothesis =>
      obtain ⟨first, later, rfl, isFirst, isLater⟩ := further
      cases others with
      | nil =>
          cases further'
          exact absurd (List.cons.inj same).1.symm notComma
      | cons other others =>
          obtain ⟨first', later', rfl, isFirst', isLater'⟩ := further'
          rw [List.forall_mem_cons] at settled
          simp only [List.cons_append, List.append_assoc, List.cons.injEq, true_and] at same
          obtain ⟨rfl, left⟩ := padded_settled starts settled.1 isFirst isFirst'
            (isLater.delimited closes) (isLater'.delimited closes) same
          obtain ⟨rfl, rfl⟩ := inductionHypothesis settled.2 isLater isLater' left
          exact ⟨rfl, rfl⟩

/-- What is closed at once is not read as a series that has parts. -/
theorem not_padded_of_space {meaning : Meaning} (space : Space text)
    (spelled : Padded (spelling meaning) text') : text ++ close :: rest ≠ text' ++ rest' := by
  intro same
  obtain ⟨before, inner, after, rfl, isBefore, isInner, -⟩ := spelled
  simp only [List.append_assoc] at same
  have left := space.settled isBefore (delimited_close closes).not_space
    ((starts isInner).append _).not_space same
  obtain ⟨lead, later, rfl, notCloser⟩ := starts isInner
  obtain ⟨rfl, -⟩ := List.cons.inj left
  have ends : Ends (close :: later) := (delimited_close closes).ends
  exact notCloser (ends close rfl)

/-- The parts of a series and where it is closed are settled if the parts are. -/
theorem series_settled {meanings others : List Meaning}
    (settled : ∀ meaning ∈ meanings, Settled spelling Ends meaning)
    (series : Series (meanings.map spelling) text) (series' : Series (others.map spelling) text')
    (same : text ++ close :: rest = text' ++ close :: rest') :
    meanings = others ∧ rest = rest' := by
  cases meanings with
  | nil =>
      cases others with
      | nil =>
          have left := Space.settled series series' (delimited_close closes).not_space
            (delimited_close closes).not_space same
          exact ⟨rfl, (List.cons.inj left).2⟩
      | cons other others =>
          obtain ⟨first, later, rfl, isFirst, -⟩ := series'
          rw [List.append_assoc] at same
          exact absurd same (not_padded_of_space starts closes series isFirst)
  | cons meaning meanings =>
      obtain ⟨first, later, rfl, isFirst, isLater⟩ := series
      rw [List.append_assoc] at same
      cases others with
      | nil => exact absurd same.symm (not_padded_of_space starts closes series' isFirst)
      | cons other others =>
          obtain ⟨first', later', rfl, isFirst', isLater'⟩ := series'
          rw [List.forall_mem_cons] at settled
          rw [List.append_assoc] at same
          obtain ⟨rfl, left⟩ := padded_settled starts settled.1 isFirst isFirst'
            (isLater.delimited closes) (isLater'.delimited closes) same
          obtain ⟨rfl, rfl⟩ := further_settled starts closes settled.2 isLater isLater' left
          exact ⟨rfl, rfl⟩

end Series

theorem MemberSpelling.starts {name : String} {value : List Char → Prop}
    (spelled : MemberSpelling name value text) : Starts text := by
  obtain ⟨nameText, before, after, valueText, rfl, isName, -⟩ := spelled
  simp only [List.append_assoc]
  exact isName.starts.append _

/-- The kinds of values, which the first character of a text tells apart. -/
inductive Kind where
  | null
  | boolean
  | number
  | string
  | array
  | object
  deriving DecidableEq

namespace Data

def kind : Data → Kind
  | null => .null
  | boolean _ => .boolean
  | number _ => .number
  | string _ => .string
  | array _ => .array
  | object _ => .object

end Data

def Kind.ofLead (lead : Char) : Kind :=
  if lead = 'n' then .null
  else if lead = 't' ∨ lead = 'f' then .boolean
  else if lead = '"' then .string
  else if lead = '[' then .array
  else if lead = '\x7b' then .object
  else .number

def numberChars : List Char := digits ++ ['-', '+', '.', 'e', 'E']

theorem mem_numberChars_of_mem_digits (membership : ∀ char ∈ text, char ∈ digits) :
    ∀ char ∈ text, char ∈ numberChars :=
  fun char isIn => List.mem_append_left _ (membership char isIn)

theorem IsNumber.all (number : IsNumber text) : ∀ char ∈ text, char ∈ numberChars := by
  obtain ⟨sign, whole, fraction, exponent, rfl, isSign, isWhole, isFraction, isExponent⟩ := number
  simp only [List.forall_mem_append]
  refine ⟨⟨⟨?sign, mem_numberChars_of_mem_digits isWhole.1.2⟩, ?fraction⟩, ?exponent⟩
  case sign => rcases isSign with rfl | rfl <;> decide
  case fraction =>
    rcases isFraction with rfl | ⟨fraction, rfl, isDigits⟩
    · nofun
    · exact List.forall_mem_cons.mpr ⟨by decide, mem_numberChars_of_mem_digits isDigits.2⟩
  case exponent =>
    rcases isExponent with rfl | ⟨mark, sign, exponent, rfl, isMark, isSign, isDigits⟩
    · nofun
    · have marks : ∀ mark ∈ ['e', 'E'], mark ∈ numberChars := by decide
      have signs : ∀ sign ∈ [[], ['+'], ['-']], ∀ char ∈ sign, char ∈ numberChars := by decide
      rw [List.forall_mem_append, List.forall_mem_cons]
      exact ⟨⟨marks mark isMark, signs sign isSign⟩, mem_numberChars_of_mem_digits isDigits.2⟩

theorem IsNumber.lead (number : IsNumber text) :
    ∃ lead rest, text = lead :: rest ∧ lead ∈ '-' :: digits := by
  obtain ⟨sign, whole, fraction, exponent, rfl, isSign, ⟨⟨nonempty, isDigits⟩, -⟩, -⟩ := number
  obtain ⟨first, others, rfl⟩ := List.exists_cons_of_ne_nil nonempty
  rcases isSign with rfl | rfl
  · exact ⟨_, _, rfl, List.mem_cons_of_mem _ (isDigits first List.mem_cons_self)⟩
  · exact ⟨_, _, rfl, List.mem_cons_self⟩

theorem Ends.not_number (ends : Ends rest) : ∀ char ∈ rest.head?, char ∉ numberChars := by
  intro char isHead
  have distinct : ∀ closer ∈ closers, closer ∉ numberChars := by decide
  exact distinct char (ends char isHead)

theorem Data.Spelling.lead {data : Data} (spelled : data.Spelling text) :
    ∃ lead rest, text = lead :: rest ∧ Kind.ofLead lead = data.kind ∧ lead ∉ closers := by
  cases data with
  | null =>
      rw [Data.Spelling] at spelled
      exact ⟨_, _, spelled, by decide⟩
  | boolean flag =>
      rw [Data.Spelling] at spelled
      cases flag
      · exact ⟨_, _, spelled, by decide⟩
      · exact ⟨_, _, spelled, by decide⟩
  | number literal =>
      rw [Data.Spelling] at spelled
      obtain ⟨lead, rest, rfl, isLead⟩ := spelled.2.lead
      have all : ∀ lead ∈ '-' :: digits, Kind.ofLead lead = .number ∧ lead ∉ closers := by decide
      exact ⟨_, _, rfl, all lead isLead⟩
  | string string =>
      rw [Data.Spelling] at spelled
      obtain ⟨inner, rfl, -⟩ := spelled
      exact ⟨_, _, rfl, rfl, by decide⟩
  | array items =>
      rw [Data.Spelling] at spelled
      obtain ⟨inner, rfl, -⟩ := spelled
      exact ⟨_, _, rfl, rfl, by decide⟩
  | object members =>
      rw [Data.Spelling] at spelled
      obtain ⟨inner, rfl, -⟩ := spelled
      exact ⟨_, _, rfl, rfl, by decide⟩

theorem Data.Spelling.starts {data : Data} (spelled : data.Spelling text) : Starts text := by
  obtain ⟨lead, rest, split, -, notCloser⟩ := spelled.lead
  exact ⟨lead, rest, split, notCloser⟩

theorem colon_not_space : ∀ char ∈ (':' :: rest).head?, char ∉ spaces := by
  rintro _ ⟨⟩
  decide

theorem memberSpelling_settled {member : String × Data}
    (settled : Settled Data.Spelling Ends member.2) :
    Settled (fun member => MemberSpelling member.1 member.2.Spelling) Ends member := by
  rintro ⟨otherName, other⟩ text text' rest rest' spelled spelled' ends ends' same
  obtain ⟨nameText, before, after, valueText, rfl, isName, isBefore, isAfter, isValue⟩ := spelled
  obtain ⟨nameText', before', after', valueText', rfl, isName', isBefore', isAfter', isValue'⟩ :=
    spelled'
  simp only [List.append_assoc, List.cons_append] at same
  obtain ⟨sameName, fromBefore⟩ :=
    stringSpelling_settled member.1 isName isName' trivial trivial same
  have fromColon := isBefore.settled isBefore' colon_not_space colon_not_space fromBefore
  have fromValue := isAfter.settled isAfter' (isValue.starts.append _).not_space
    (isValue'.starts.append _).not_space (List.cons.inj fromColon).2
  obtain ⟨sameValue, rfl⟩ := settled isValue isValue' ends ends' fromValue
  exact ⟨Prod.ext sameName sameValue, rfl⟩

theorem Data.Spelling.kind_eq {data other : Data} (spelled : data.Spelling text)
    (spelled' : other.Spelling text') (same : text ++ rest = text' ++ rest') :
    data.kind = other.kind := by
  obtain ⟨lead, later, rfl, kind, -⟩ := spelled.lead
  obtain ⟨lead', later', rfl, kind', -⟩ := spelled'.lead
  obtain ⟨rfl, -⟩ := List.cons.inj same
  exact kind.symm.trans kind'

/-- The text of a value settles the value, and where the text ends. -/
theorem Data.settled (data : Data) : Settled Data.Spelling Ends data := by
  induction data using Data.induction with
  | null =>
      intro other text text' rest rest' spelled spelled' ends ends' same
      cases other with
      | null =>
          rw [Data.Spelling] at spelled spelled'
          subst spelled spelled'
          exact ⟨rfl, List.append_cancel_left same⟩
      | _ => cases spelled.kind_eq spelled' same
  | boolean flag =>
      intro other text text' rest rest' spelled spelled' ends ends' same
      cases other with
      | boolean other =>
          rw [Data.Spelling] at spelled spelled'
          subst spelled spelled'
          cases flag <;> cases other <;> simp_all
      | _ => cases spelled.kind_eq spelled' same
  | number literal =>
      intro other text text' rest rest' spelled spelled' ends ends' same
      cases other with
      | number other =>
          rw [Data.Spelling] at spelled spelled'
          obtain ⟨sameText, rfl⟩ := eq_of_append_eq spelled.2.all spelled'.2.all ends.not_number
            ends'.not_number same
          rw [spelled.1, spelled'.1] at sameText
          exact ⟨congrArg Data.number (String.toList_injective sameText), rfl⟩
      | _ => cases spelled.kind_eq spelled' same
  | string string =>
      intro other text text' rest rest' spelled spelled' ends ends' same
      cases other with
      | string other =>
          rw [Data.Spelling] at spelled spelled'
          obtain ⟨rfl, rfl⟩ :=
            stringSpelling_settled string spelled spelled' trivial trivial same
          exact ⟨rfl, rfl⟩
      | _ => cases spelled.kind_eq spelled' same
  | array items inductionHypothesis =>
      intro other text text' rest rest' spelled spelled' ends ends' same
      cases other with
      | array others =>
          rw [Data.Spelling] at spelled spelled'
          obtain ⟨inner, rfl, series⟩ := spelled
          obtain ⟨inner', rfl, series'⟩ := spelled'
          simp only [List.cons_append, List.append_assoc, List.cons.injEq, true_and,
            List.nil_append] at same
          obtain ⟨rfl, rfl⟩ := series_settled (fun _ _ spelled => spelled.starts) (by decide)
            inductionHypothesis series series' same
          exact ⟨rfl, rfl⟩
      | _ => cases spelled.kind_eq spelled' same
  | object members inductionHypothesis =>
      intro other text text' rest rest' spelled spelled' ends ends' same
      cases other with
      | object others =>
          rw [Data.Spelling] at spelled spelled'
          obtain ⟨inner, rfl, series⟩ := spelled
          obtain ⟨inner', rfl, series'⟩ := spelled'
          simp only [List.cons_append, List.append_assoc, List.cons.injEq, true_and,
            List.nil_append] at same
          have settled : ∀ member ∈ members, Settled
              (fun member => MemberSpelling member.1 member.2.Spelling) Ends member :=
            fun member membership =>
              memberSpelling_settled (inductionHypothesis member membership)
          obtain ⟨rfl, rfl⟩ := series_settled (fun _ _ spelled => spelled.starts) (by decide)
            settled series series' same
          exact ⟨rfl, rfl⟩
      | _ => cases spelled.kind_eq spelled' same

theorem Denotes.unique {text : String} {data other : Data} (denotes : Denotes text data)
    (denotes' : Denotes text other) : data = other := by
  have nothing : Delimited [] := nofun
  exact (padded_settled (fun _ _ spelled => Data.Spelling.starts spelled) data.settled denotes
    denotes' nothing nothing rfl).1

end Asn1.Json
