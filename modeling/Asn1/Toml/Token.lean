import Asn1.Toml.Quotation

/-!
The tokens of TOML. Comments are left out; white space is kept, since it may not stand everywhere.
-/

namespace Asn1.Toml

inductive Token where
  | newline
  /-- Spaces and tabs. -/
  | blank (chars : List Char)
  | equals
  | period
  | comma
  | colon
  | plus
  | openBrace
  | closeBrace
  | openBracket
  | closeBracket
  | string (text : String) (multiline : Bool)
  /-- What is made up of letters, digits, `-` and `_`: a key or a value. -/
  | word (chars : List Char)
  deriving DecidableEq, Repr

namespace Token

def single? : Char → Option Token
  | '\n' => some newline
  | '=' => some equals
  | '.' => some period
  | ',' => some comma
  | ':' => some colon
  | '+' => some plus
  | '\x7b' => some openBrace
  | '\x7d' => some closeBrace
  | '[' => some openBracket
  | ']' => some closeBracket
  | _ => none

def isBlank (char : Char) : Bool := char = ' ' ∨ char = '\t'

def isComment (char : Char) : Bool := char = '\t' ∨ ' ' ≤ char

def isWord (char : Char) : Bool := char.isAlphanum ∨ char = '-' ∨ char = '_'

def scan? (chars : List Char) : Option (List Token) :=
  match chars with
  | [] => some []
  | first :: rest =>
      match single? first with
      | some token => (scan? rest).map (token :: ·)
      | none =>
          if first = '#' then
            scan? (rest.dropWhile isComment)
          else if first = '"' ∨ first = '\'' then
            match _ : quoted? first rest with
            | some (text, multiline, after) =>
                (scan? after).map (string (String.ofList text) multiline :: ·)
            | none => none
          else if isBlank first then
            (scan? (rest.dropWhile isBlank)).map (blank (first :: rest.takeWhile isBlank) :: ·)
          else if isWord first then
            (scan? (rest.dropWhile isWord)).map (word (first :: rest.takeWhile isWord) :: ·)
          else
            none
termination_by chars.length
decreasing_by
  · simp
  · exact Nat.lt_succ_of_le (List.dropWhile_suffix isComment).length_le
  · exact Nat.lt_succ_of_lt (length_of_quoted? ‹_›)
  · exact Nat.lt_succ_of_le (List.dropWhile_suffix isBlank).length_le
  · exact Nat.lt_succ_of_le (List.dropWhile_suffix isWord).length_le

def skipBlank : List Token → List Token
  | blank _ :: rest => rest
  | tokens => tokens

def isSpace : Token → Bool
  | blank _ | newline => true
  | _ => false

def skipLines (tokens : List Token) : List Token := tokens.dropWhile isSpace

theorem length_skipBlank (tokens : List Token) : (skipBlank tokens).length ≤ tokens.length := by
  unfold skipBlank
  split <;> simp

theorem length_skipLines (tokens : List Token) : (skipLines tokens).length ≤ tokens.length :=
  (List.dropWhile_suffix isSpace).length_le

theorem length_of_skipBlank {tokens rest : List Token} {token : Token}
    (found : skipBlank tokens = token :: rest) : rest.length < tokens.length := by
  have shorter := length_skipBlank tokens
  rw [found] at shorter
  exact shorter

theorem length_of_skipLines {tokens rest : List Token} {token : Token}
    (found : skipLines tokens = token :: rest) : rest.length < tokens.length := by
  have shorter := length_skipLines tokens
  rw [found] at shorter
  exact shorter

end Token

/-- Turns line ends of two characters into one. A carriage return elsewhere stays. -/
def foldLineEnds : List Char → List Char
  | '\r' :: '\n' :: rest => '\n' :: foldLineEnds rest
  | char :: rest => char :: foldLineEnds rest
  | [] => []

def dropByteOrderMark : List Char → List Char
  | '\ufeff' :: rest => rest
  | chars => chars

def tokens? (document : String) : Option (List Token) :=
  Token.scan? (foldLineEnds (dropByteOrderMark document.toList))

end Asn1.Toml
