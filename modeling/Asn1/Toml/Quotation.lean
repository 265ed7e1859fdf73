import Asn1.Hex

/-!
Strings in TOML. They stand between single quotation marks, where every character means itself, or
between double ones, where a backslash starts an escape. Three marks at either end allow several
lines.
-/

namespace Asn1.Toml

/-- Whether a character may stand in a string as it is. -/
def isPlain (char : Char) : Bool := char = '\t' ∨ (' ' ≤ char ∧ char ≠ '\x7f')

def hexDigit? (char : Char) : Option Nat :=
  if char.toNat < 128 then Hex.value? (UInt8.ofNat char.toNat) else none

/-- The value of hexadecimal digits behind a number that is read already. -/
def hexValue? (number : Nat) : List Char → Option Nat
  | [] => some number
  | char :: rest => do hexValue? (number * 16 + (← hexDigit? char)) rest

/-- The character whose code point is written by the first `count` characters. -/
def codePoint? (count : Nat) (chars : List Char) : Option (Char × List Char) := do
  let value ← hexValue? 0 (chars.take count)
  if count ≤ chars.length ∧ value.isValidChar then
    some (Char.ofNat value, chars.drop count)
  else
    none

def escapedBy? : Char → Option Char
  | '"' => some '"'
  | '\\' => some '\\'
  | 'b' => some '\x08'
  | 'f' => some '\x0c'
  | 'n' => some '\n'
  | 'r' => some '\r'
  | 't' => some '\t'
  | _ => none

def escapeLetter? : Char → Option Char
  | '"' => some '"'
  | '\\' => some '\\'
  | '\x08' => some 'b'
  | '\x0c' => some 'f'
  | '\n' => some 'n'
  | '\r' => some 'r'
  | '\t' => some 't'
  | _ => none

def escape? : List Char → Option (Char × List Char)
  | [] => none
  | letter :: rest =>
      match escapedBy? letter with
      | some char => some (char, rest)
      | none =>
          if letter = 'u' then codePoint? 4 rest
          else if letter = 'U' then codePoint? 8 rest
          else none

/-- Whether a character is white space that a backslash at the end of a line takes away. -/
def isLineBlank (char : Char) : Bool := char = ' ' ∨ char = '\t' ∨ char = '\n'

/-- What follows a backslash at the end of a line and the white space behind it. -/
def nextLine? (chars : List Char) : Option (List Char) :=
  if '\n' ∈ chars.takeWhile isLineBlank then some (chars.dropWhile isLineBlank) else none

/-- Reads the marks at the end of a string of several lines. Up to two more than three are part of
the string. -/
def closing? (mark : Char) (chars : List Char) : Option (List Char × List Char) :=
  let count := min 5 (chars.takeWhile (· = mark)).length
  if 3 ≤ count then some (List.replicate (count - 3) mark, chars.drop count) else none

theorem length_of_codePoint? {count : Nat} {chars rest : List Char} {char : Char}
    (found : codePoint? count chars = some (char, rest)) : rest.length ≤ chars.length := by
  simp only [codePoint?, bind, Option.bind_eq_some_iff] at found
  obtain ⟨value, _, found⟩ := found
  split at found
  · obtain ⟨_, rfl⟩ := by simpa using found
    simp
  · contradiction

theorem length_of_escape? {chars rest : List Char} {char : Char}
    (found : escape? chars = some (char, rest)) : rest.length < chars.length := by
  cases chars with
  | nil => simp [escape?] at found
  | cons letter others =>
      simp only [escape?] at found
      split at found
      · obtain ⟨_, rfl⟩ := by simpa using found
        simp
      · split at found
        · exact Nat.lt_succ_of_le (length_of_codePoint? found)
        · split at found
          · exact Nat.lt_succ_of_le (length_of_codePoint? found)
          · contradiction

theorem length_of_nextLine? {chars rest : List Char} (found : nextLine? chars = some rest) :
    rest.length ≤ chars.length := by
  simp only [nextLine?] at found
  split at found
  · obtain rfl := by simpa using found
    exact (List.dropWhile_suffix isLineBlank).length_le
  · contradiction

/-- Puts a character in front of the text that was read. -/
def withChar (char : Char) (read : List Char × List Char) : List Char × List Char :=
  (char :: read.1, read.2)

def body? (mark : Char) (multiline : Bool) (chars : List Char) :
    Option (List Char × List Char) :=
  match chars with
  | [] => none
  | first :: rest =>
      if first = mark then
        if multiline then
          match closing? mark (first :: rest) with
          | some read => some read
          | none => (body? mark multiline rest).map (withChar first)
        else
          some ([], rest)
      else if first = '\\' ∧ mark = '"' then
        match _ : escape? rest with
        | some (char, after) => (body? mark multiline after).map (withChar char)
        | none =>
            match _ : nextLine? rest with
            | some after => if multiline then body? mark multiline after else none
            | none => none
      else if isPlain first ∨ (multiline ∧ first = '\n') then
        (body? mark multiline rest).map (withChar first)
      else
        none
termination_by chars.length
decreasing_by
  · simp
  · exact Nat.lt_succ_of_lt (length_of_escape? ‹_›)
  · exact Nat.lt_succ_of_le (length_of_nextLine? ‹_›)
  · simp

/-- Reads a string behind its first mark: its text, whether it may have several lines, and what
follows. A line break right behind three marks does not count. -/
def quoted? (mark : Char) (chars : List Char) : Option (List Char × Bool × List Char) :=
  if chars.take 2 = [mark, mark] then
    let lines := chars.drop 2
    let start := if lines.head? = some '\n' then lines.tail else lines
    (body? mark true start).map fun (text, after) => (text, true, after)
  else
    (body? mark false chars).map fun (text, after) => (text, false, after)

def writeChar (char : Char) : List Char :=
  match escapeLetter? char with
  | some letter => ['\\', letter]
  | none =>
      if isPlain char then [char] else ['\\', 'u'] ++ (Hex.padded 4 char.toNat).map Char.toUpper

def quote (text : String) : String :=
  String.ofList ('"' :: text.toList.flatMap writeChar ++ ['"'])

theorem length_of_closing? {mark : Char} {chars text rest : List Char}
    (found : closing? mark chars = some (text, rest)) : rest.length < chars.length := by
  simp only [closing?] at found
  split at found
  · obtain ⟨_, rfl⟩ := by simpa using found
    have shorter := (List.takeWhile_prefix (l := chars) (· = mark)).length_le
    simp only [List.length_drop]
    omega
  · contradiction

theorem eq_some_of_map_withChar {char : Char} {read : Option (List Char × List Char)}
    {text rest : List Char} (found : read.map (withChar char) = some (text, rest)) :
    ∃ others, read = some (others, rest) := by
  cases read with
  | none => contradiction
  | some pair =>
      obtain ⟨_, rfl⟩ := by simpa [withChar] using found
      exact ⟨pair.1, rfl⟩

theorem length_of_body? {mark : Char} {multiline : Bool} {chars text rest : List Char}
    (found : body? mark multiline chars = some (text, rest)) : rest.length < chars.length := by
  fun_induction body? mark multiline chars generalizing text rest with
  | case2 _ _ read closed =>
      obtain rfl := by simpa using found
      exact length_of_closing? closed
  | case3 _ _ _ inductionHypothesis | case9 _ _ _ _ _ inductionHypothesis =>
      obtain ⟨_, read⟩ := eq_some_of_map_withChar found
      exact Nat.lt_succ_of_lt (inductionHypothesis read)
  | case4 => simp_all
  | case5 _ _ _ _ _ _ escaped inductionHypothesis =>
      obtain ⟨_, read⟩ := eq_some_of_map_withChar found
      exact Nat.lt_succ_of_lt (Nat.lt_trans (inductionHypothesis read) (length_of_escape? escaped))
  | case6 _ _ _ _ _ after continued _ inductionHypothesis =>
      exact Nat.lt_succ_of_le (Nat.le_trans (Nat.le_of_lt (inductionHypothesis found))
        (length_of_nextLine? continued))
  | case1 | case7 | case8 | case10 => contradiction

theorem length_of_quoted? {mark : Char} {chars text rest : List Char} {multiline : Bool}
    (found : quoted? mark chars = some (text, multiline, rest)) :
    rest.length < chars.length := by
  simp only [quoted?] at found
  split at found
  · obtain ⟨read, body, same⟩ := Option.map_eq_some_iff.1 found
    obtain ⟨_, _, rfl⟩ := by simpa using same
    have shorter := length_of_body? body
    split at shorter <;> simp at shorter <;> omega
  · obtain ⟨read, body, same⟩ := Option.map_eq_some_iff.1 found
    obtain ⟨_, _, rfl⟩ := by simpa using same
    exact length_of_body? body

end Asn1.Toml
