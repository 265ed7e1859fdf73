import Asn1.Toml.DateTime
import Asn1.Toml.Token
import Asn1.Toml.Value

/-!
Reading TOML documents. Lines are read one after another, then their settings are put in place and
their values are found.
-/

namespace Asn1.Toml

open Token

/-- The character of a token that may stand between two words of a value. -/
def mark? : Token → Option Char
  | blank [' '] => some ' '
  | period => some '.'
  | plus => some '+'
  | colon => some ':'
  | _ => none

/-- Reads the words of a value that have a mark in front of them. -/
def markedWords : List Token → List (Char × List Char) × List Token
  | token :: word chars :: rest =>
      match mark? token with
      | some mark =>
          let (others, after) := markedWords rest
          ((mark, chars) :: others, after)
      | none => ([], token :: word chars :: rest)
  | tokens => ([], tokens)

/-- The value written by a word and by marked words behind it. -/
def literal? (first : List Char) (marked : List (Char × List Char)) : Option Written :=
  let marks := marked.map Prod.fst
  let chars := first ++ marked.flatMap fun (mark, chars) => mark :: chars
  if chars = ['t', 'r', 'u', 'e'] then some (.boolean true)
  else if chars = ['f', 'a', 'l', 's', 'e'] then some (.boolean false)
  else if DateTime.isBegun first marks then
    if DateTime.areMarks marks then some (.dateTime chars) else none
  else
    (Number.read? chars).map .number

def scalar? : List Token → Option (Written × List Token)
  | string text _ :: rest => some (.string text, rest)
  | word first :: rest =>
      let (marked, after) := markedWords rest
      (literal? first marked).map fun value => (value, after)
  | plus :: word first :: rest =>
      let (marked, after) := markedWords rest
      (literal? ('+' :: first) marked).map fun value => (value, after)
  | _ => none

def name? : List Token → Option (String × List Token)
  | string text false :: rest => some (text, rest)
  | word chars :: rest => some (String.ofList chars, rest)
  | _ => none

theorem length_markedWords (tokens : List Token) :
    (markedWords tokens).2.length ≤ tokens.length := by
  fun_induction markedWords tokens with
  | case1 _ _ _ _ _ _ _ same inductionHypothesis =>
      rw [same] at inductionHypothesis
      exact Nat.le_succ_of_le (Nat.le_succ_of_le inductionHypothesis)
  | case2 => simp
  | case3 => simp

theorem length_of_name? {tokens rest : List Token} {name : String}
    (found : name? tokens = some (name, rest)) : rest.length < tokens.length := by
  unfold name? at found
  split at found <;> simp_all

/-- Reads a key, whose names are set apart by dots, and the white space around its names. -/
def key? (tokens : List Token) : Option (List String × List Token) :=
  match _ : name? (skipBlank tokens) with
  | none => none
  | some (name, after) =>
      match _ : skipBlank after with
      | period :: rest => (key? rest).map fun (names, after) => (name :: names, after)
      | after => some ([name], after)
termination_by tokens.length
decreasing_by
  have before := length_skipBlank tokens
  have named := length_of_name? ‹name? _ = _›
  have behind := length_skipBlank after
  simp_all
  omega

theorem length_of_key? {tokens rest : List Token} {names : List String}
    (found : key? tokens = some (names, rest)) : rest.length < tokens.length := by
  fun_induction key? tokens generalizing names rest with
  | case1 => contradiction
  | case2 tokens name after named further period inductionHypothesis =>
      obtain ⟨read, later, same⟩ := Option.map_eq_some_iff.1 found
      obtain ⟨_, rfl⟩ := by simpa using same
      have before := length_skipBlank tokens
      have named := length_of_name? named
      have behind := length_skipBlank after
      have shorter := inductionHypothesis later
      simp only [period, List.length_cons] at behind
      omega
  | case3 tokens name after named =>
      obtain ⟨_, rfl⟩ := by simpa using found
      have before := length_skipBlank tokens
      have named := length_of_name? named
      have behind := length_skipBlank after
      omega

theorem length_of_scalar? {tokens rest : List Token} {value : Written}
    (found : scalar? tokens = some (value, rest)) : rest.length < tokens.length := by
  unfold scalar? at found
  split at found
  · simp_all
  · obtain ⟨_, _, same⟩ := Option.map_eq_some_iff.1 found
    obtain ⟨_, rfl⟩ := by simpa using same
    exact Nat.lt_succ_of_le (length_markedWords _)
  · obtain ⟨_, _, same⟩ := Option.map_eq_some_iff.1 found
    obtain ⟨_, rfl⟩ := by simpa using same
    exact Nat.lt_succ_of_lt (Nat.lt_succ_of_le (length_markedWords _))
  · contradiction

/-- Something read from the start of tokens and the tokens that follow, of which there are fewer. -/
abbrev Read (α : Type) (tokens : List Token) : Type :=
  Option { read : α × List Token // read.2.length < tokens.length }

/-- Changes what was read from the last of some tokens into what was read from all of them. -/
def Read.extend {α β : Type} {tokens rest : List Token} (read : Read α rest) (change : α → β)
    (shorter : rest.length ≤ tokens.length) : Read β tokens :=
  read.map fun found => ⟨(change found.1.1, found.1.2), Nat.lt_of_lt_of_le found.2 shorter⟩

mutual

def value? (tokens : List Token) : Read Written tokens :=
  match tokens with
  | openBracket :: rest => (items? rest).extend .array (Nat.le_succ _)
  | openBrace :: rest =>
      match ended : skipBlank rest with
      | closeBrace :: after =>
          some ⟨(.table false [], after), Nat.lt_succ_of_lt (length_of_skipBlank ended)⟩
      | _ => (pairs? [] rest).extend (.table false) (Nat.le_succ _)
  | tokens =>
      match found : scalar? tokens with
      | some read => some ⟨read, length_of_scalar? found⟩
      | none => none
termination_by 2 * tokens.length

def items? (tokens : List Token) : Read (List Written) tokens :=
  match ended : skipLines tokens with
  | closeBracket :: after => some ⟨([], after), length_of_skipLines ended⟩
  | start =>
      have within : start.length ≤ tokens.length := ended ▸ length_skipLines tokens
      match value? start with
      | none => none
      | some ⟨(value, after), shorter⟩ =>
          have fewer : after.length < tokens.length := Nat.lt_of_lt_of_le shorter within
          match separated : skipLines after with
          | closeBracket :: rest =>
              some ⟨([value], rest), Nat.lt_trans (length_of_skipLines separated) fewer⟩
          | comma :: rest =>
              have further : rest.length < tokens.length :=
                Nat.lt_trans (length_of_skipLines separated) fewer
              (items? rest).extend (value :: ·) (Nat.le_of_lt further)
          | _ => none
termination_by 2 * tokens.length + 1

/-- Reads the settings in braces up to their end and adds them to settings. -/
def pairs? (settings : Settings) (tokens : List Token) : Read Settings tokens :=
  match named : key? tokens with
  | some (names, equals :: start) =>
      have within : (skipBlank start).length < tokens.length :=
        Nat.lt_of_le_of_lt (length_skipBlank start)
          (Nat.lt_of_succ_lt (length_of_key? named))
      match value? (skipBlank start) with
      | none => none
      | some ⟨(value, after), shorter⟩ =>
          have fewer : after.length < tokens.length := Nat.lt_trans shorter within
          match settings.add? value names with
          | none => none
          | some settings =>
              match separated : skipBlank after with
              | closeBrace :: rest =>
                  some ⟨(settings, rest), Nat.lt_trans (length_of_skipBlank separated) fewer⟩
              | comma :: rest =>
                  have further : rest.length < tokens.length :=
                    Nat.lt_trans (length_of_skipBlank separated) fewer
                  (pairs? settings rest).extend id (Nat.le_of_lt further)
              | _ => none
  | _ => none
termination_by 2 * tokens.length + 1

end

inductive Line where
  | header (names : List String) (repeated : Bool)
  | setting (names : List String) (value : Written)

def lineEnd? (tokens : List Token) : Option (List Token) :=
  match skipBlank tokens with
  | [] => some []
  | newline :: rest => some rest
  | _ => none

def header? (repeated : Bool) (tokens : List Token) : Option (Line × List Token) :=
  match key? tokens, repeated with
  | some (names, closeBracket :: rest), false => some (.header names false, rest)
  | some (names, closeBracket :: closeBracket :: rest), true => some (.header names true, rest)
  | _, _ => none

def line? : List Token → Option (Line × List Token)
  | openBracket :: openBracket :: rest => header? true rest
  | openBracket :: rest => header? false rest
  | tokens =>
      match key? tokens with
      | some (names, equals :: rest) =>
          (value? (skipBlank rest)).map fun read => (.setting names read.1.1, read.1.2)
      | _ => none

theorem length_of_lineEnd? {tokens rest : List Token} (found : lineEnd? tokens = some rest) :
    rest.length ≤ tokens.length := by
  have blank := length_skipBlank tokens
  unfold lineEnd? at found
  split at found <;> simp_all
  omega

theorem length_of_header? {repeated : Bool} {tokens rest : List Token} {line : Line}
    (found : header? repeated tokens = some (line, rest)) : rest.length < tokens.length := by
  unfold header? at found
  split at found
  · have shorter := length_of_key? ‹_›
    simp_all
    omega
  · have shorter := length_of_key? ‹_›
    simp_all
    omega
  · contradiction

theorem length_of_line? {tokens rest : List Token} {line : Line}
    (found : line? tokens = some (line, rest)) : rest.length < tokens.length := by
  unfold line? at found
  split at found
  · exact Nat.lt_succ_of_lt (Nat.lt_succ_of_lt (length_of_header? found))
  · exact Nat.lt_succ_of_lt (length_of_header? found)
  · split at found
    · rename_i start named
      have before := length_of_key? named
      have around := length_skipBlank start
      obtain ⟨read, _, same⟩ := Option.map_eq_some_iff.1 found
      obtain ⟨_, rfl⟩ := by simpa using same
      have shorter := read.2
      simp only [List.length_cons] at before
      omega
    · contradiction

def lines? (tokens : List Token) : Option (List Line) :=
  match _ : skipLines tokens with
  | [] => some []
  | start =>
      match _ : line? start with
      | none => none
      | some (line, after) =>
          match _ : lineEnd? after with
          | none => none
          | some rest => (lines? rest).map (line :: ·)
termination_by tokens.length
decreasing_by
  have before := length_skipLines tokens
  have read := length_of_line? ‹line? start = _›
  have behind := length_of_lineEnd? ‹lineEnd? after = _›
  simp_all
  omega

/-- Puts the settings of lines in place, given the table of the sections before the current one. -/
def build? (table : Table) (current : Section) : List Line → Option Table
  | [] => table.addSection? current
  | .header names repeated :: rest => do
      build? (← table.addSection? current) ⟨names, repeated, []⟩ rest
  | .setting names value :: rest => do
      build? table { current with settings := ← current.settings.add? value names } rest

def parse? (document : String) : Option Table := do
  build? [] ⟨[], false, []⟩ (← lines? (← tokens? document))

end Asn1.Toml
