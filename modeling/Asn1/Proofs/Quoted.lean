import Asn1.Proofs.Unicode.Control
import Asn1.Quoted
import Mathlib.Tactic.SplitIfs

/-!
# Quoted text is read back

What stands between quotation marks is the text once its escapes are undone, and it has no control
characters.
-/

namespace Asn1.Quoted

/-- The character that a letter stands for behind a backslash. -/
def escapedBy? : Char → Option Char
  | '0' => some '\x00'
  | 't' => some '\t'
  | 'n' => some '\n'
  | 'r' => some '\r'
  | '\\' => some '\\'
  | '"' => some '"'
  | '\'' => some '\''
  | _ => none

mutual

/-- Undoes the escapes up to the closing quotation mark, which has to come last. -/
def unescape : List Char → Option (List Char)
  | [] => none
  | '\\' :: 'u' :: '\x7b' :: rest => codePoint 0 rest
  | '\\' :: letter :: rest => do
      let char ← escapedBy? letter
      return char :: (← unescape rest)
  | '"' :: rest => if rest = [] then some [] else none
  | char :: rest => (unescape rest).map (char :: ·)

/-- Reads further hexadecimal digits of a code point up to the closing brace. -/
def codePoint (number : Nat) : List Char → Option (List Char)
  | [] => none
  | char :: rest =>
      if char = '\x7d' then (unescape rest).map (Char.ofNat number :: ·)
      else do codePoint (number * 16 + (← Toml.hexDigit? char)) rest

end

def unquote : List Char → Option String
  | '"' :: rest => (unescape rest).map String.ofList
  | _ => none

theorem codePoint_append {number value : Nat} {digits : List Char}
    (read : Toml.hexValue? number digits = some value) (rest : List Char) :
    codePoint number (digits ++ '\x7d' :: rest) =
      (unescape rest).map (Char.ofNat value :: ·) := by
  induction digits generalizing number with
  | nil =>
      cases read
      rw [List.nil_append, codePoint, if_pos rfl]
  | cons char digits inductionHypothesis =>
      rw [Toml.hexValue?, Option.bind_eq_bind, Option.bind_eq_some_iff] at read
      obtain ⟨digit, isDigit, read⟩ := read
      have notBrace : char ≠ '\x7d' := by
        rintro rfl
        cases isDigit
      rw [List.cons_append, codePoint, if_neg notBrace, isDigit]
      exact inductionHypothesis read

theorem unescape_letter {letter char : Char} (escaped : escapedBy? letter = some char)
    (rest : List Char) :
    unescape ('\\' :: letter :: rest) = (unescape rest).map (char :: ·) := by
  have notCodePoint : letter ≠ 'u' := by
    rintro rfl
    cases escaped
  rw [unescape, escaped]
  · cases unescape rest <;> rfl
  · intro _ isCodePoint _
    exact notCodePoint isCodePoint

theorem unescape_plain {char : Char} (notQuote : char ≠ '"') (notBackslash : char ≠ '\\')
    (rest : List Char) : unescape (char :: rest) = (unescape rest).map (char :: ·) := by
  rw [unescape]
  · intro _ isBackslash _
    exact notBackslash isBackslash
  · intro _ _ isBackslash _
    exact notBackslash isBackslash
  · exact notQuote

theorem unescape_escape_append (char : Char) (rest : List Char) :
    unescape (escape ['"'] char ++ rest) = (unescape rest).map (char :: ·) := by
  unfold escape
  split_ifs with isNul isTab isNewline isReturn isBackslash isMark isHidden
  · exact unescape_letter (by rw [isNul]; rfl) rest
  · exact unescape_letter (by rw [isTab]; rfl) rest
  · exact unescape_letter (by rw [isNewline]; rfl) rest
  · exact unescape_letter (by rw [isReturn]; rfl) rest
  · exact unescape_letter (by rw [isBackslash]; rfl) rest
  · exact unescape_letter (by rw [List.eq_of_mem_singleton isMark]; rfl) rest
  · simp only [List.cons_append, List.append_assoc, List.nil_append]
    rw [unescape, codePoint_append (Toml.hexValue?_numeral char.toNat), Char.ofNat_toNat]
  · exact unescape_plain (fun isQuote => isMark (List.mem_singleton.mpr isQuote)) isBackslash rest

theorem unescape_escape (chars : List Char) :
    unescape (chars.flatMap (escape ['"']) ++ ['"']) = some chars := by
  induction chars with
  | nil => rfl
  | cons char chars inductionHypothesis =>
      rw [List.flatMap_cons, List.append_assoc, unescape_escape_append, inductionHypothesis]
      rfl

/-- The text in quotation marks can be read back, whatever characters it has. -/
theorem unquote_string (text : String) : unquote (string text).toList = some text := by
  rw [string, String.toList_ofList, enclose, List.cons_append, unquote, unescape_escape,
    Option.map_some, String.ofList_toList]

theorem isControl_of_mem_escape {marks : List Char}
    (noControl : ∀ mark ∈ marks, Unicode.isControl mark = false) (char : Char) :
    ∀ other ∈ escape marks char, Unicode.isControl other = false := by
  unfold escape
  split_ifs with _ _ _ _ _ isMark isHidden
  · decide
  · decide
  · decide
  · decide
  · decide
  · exact List.forall_mem_cons.mpr ⟨by decide,
      List.forall_mem_singleton.mpr (noControl char isMark)⟩
  · simp only [List.forall_mem_append]
    exact ⟨⟨by decide, Unicode.isControl_of_mem_numeral⟩, by decide⟩
  · rw [List.forall_mem_singleton]
    cases control : Unicode.isControl char with
    | false => rfl
    | true => exact absurd (Unicode.isHidden_of_isControl control) isHidden

@[simp]
theorem noControl_string (text : String) : Unicode.NoControl (string text) := by
  apply Unicode.noControl_ofList
  intro char membership
  simp only [enclose, List.cons_append, List.mem_cons, List.mem_append, List.mem_flatMap,
    List.not_mem_nil, or_false] at membership
  rcases membership with rfl | ⟨other, -, escaped⟩ | rfl
  · decide
  · exact isControl_of_mem_escape (by decide) other char escaped
  · decide

end Asn1.Quoted
