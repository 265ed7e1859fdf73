import Asn1.Proofs.Numeral

/-!
# Quoted text in TOML is read back

Each character is written as itself or as one escape, and none of them is the closing quotation
mark. So a string ends where its text does, whatever text it is.
-/

namespace Asn1.Toml

theorem escapedBy?_of_escapeLetter? {char letter : Char}
    (written : escapeLetter? char = some letter) :
    escapedBy? letter = some char := by
  unfold escapeLetter? at written
  split at written
  all_goals
    cases written
  all_goals rfl

theorem escape?_of_escapeLetter? {char letter : Char} (written : escapeLetter? char = some letter)
    (rest : List Char) : escape? (letter :: rest) = some (char, rest) := by
  rw [escape?, escapedBy?_of_escapeLetter? written]

theorem hexValue?_map_toUpper {number : Nat} {chars : List Char}
    (same : ∀ char ∈ chars, hexDigit? char.toUpper = hexDigit? char) :
    hexValue? number (chars.map Char.toUpper) = hexValue? number chars := by
  induction chars generalizing number with
  | nil => rfl
  | cons char chars inductionHypothesis =>
      rw [List.forall_mem_cons] at same
      rw [List.map_cons, hexValue?, hexValue?, same.1]
      exact Option.bind_congr fun digit _ => inductionHypothesis same.2

theorem hexDigit?_toUpper_digit (digit : Fin 16) :
    hexDigit? (Hex.digit digit).toUpper = hexDigit? (Hex.digit digit) := by
  revert digit
  decide

theorem codePoint?_padded {char : Char} (small : char.toNat < 16 ^ 4) (rest : List Char) :
    codePoint? 4 ((Hex.padded 4 char.toNat).map Char.toUpper ++ rest) = some (char, rest) := by
  have length : ((Hex.padded 4 char.toNat).map Char.toUpper).length = 4 := by
    rw [List.length_map, Hex.length_padded small]
  rw [codePoint?, List.take_left' length, hexValue?_map_toUpper
    (Hex.forall_mem_padded hexDigit?_toUpper_digit 4 char.toNat), hexValue?_padded,
    Option.bind_eq_bind, Option.bind_some, List.drop_left' length,
    Char.ofNat_toNat, if_pos]
  rw [List.length_append, length]
  exact ⟨Nat.le_add_right _ _, char.valid⟩

/-- What is not written as itself and has no letter is a control character. -/
theorem toNat_lt_of_not_isPlain {char : Char} (hidden : isPlain char = false) :
    char.toNat < 128 := by
  rw [isPlain, decide_eq_false_iff_not] at hidden
  refine Nat.lt_of_not_le fun large => hidden (.inr ⟨?_, ?_⟩)
  · exact Nat.le_trans (by decide) large
  · rintro rfl
    exact absurd large (by decide)

theorem body?_plain {char : Char} (notQuote : char ≠ '"') (notBackslash : char ≠ '\\')
    (plain : isPlain char = true) (rest : List Char) :
    body? '"' false (char :: rest) = (body? '"' false rest).map (withChar char) := by
  rw [body?, if_neg notQuote, if_neg (fun escaped => notBackslash escaped.1),
    if_pos (.inl plain)]

theorem body?_backslash {char : Char} {rest after : List Char}
    (escaped : escape? rest = some (char, after)) :
    body? '"' false ('\\' :: rest) = (body? '"' false after).map (withChar char) := by
  rw [body?, if_neg (by decide), if_pos ⟨rfl, rfl⟩]
  split
  next found =>
    cases escaped.symm.trans found
    rfl
  next notFound => cases escaped.symm.trans notFound

theorem body?_writeChar_append (char : Char) (rest : List Char) :
    body? '"' false (writeChar char ++ rest) = (body? '"' false rest).map (withChar char) := by
  unfold writeChar
  split
  next letter written => exact body?_backslash (escape?_of_escapeLetter? written rest)
  next notWritten =>
    split
    next plain =>
      refine body?_plain ?_ ?_ plain rest
      · rintro rfl
        cases notWritten
      · rintro rfl
        cases notWritten
    next hidden =>
      -- Four digits are enough, since only control characters are written in this way.
      have small := toNat_lt_of_not_isPlain (eq_false_of_ne_true hidden)
      exact body?_backslash (codePoint?_padded (Nat.lt_trans small (by decide)) rest)

theorem body?_flatMap_writeChar (chars rest : List Char) :
    body? '"' false (chars.flatMap writeChar ++ '"' :: rest) = some (chars, rest) := by
  induction chars with
  | nil =>
      rw [List.flatMap_nil, List.nil_append, body?]
      rfl
  | cons char chars inductionHypothesis =>
      rw [List.flatMap_cons, List.append_assoc, body?_writeChar_append, inductionHypothesis]
      rfl

theorem head?_writeChar_ne (char : Char) (rest : List Char) :
    (writeChar char ++ rest).head? ≠ some '"' := by
  unfold writeChar
  split
  next => simp
  next notWritten =>
    split
    next =>
      rintro isQuote
      cases isQuote
      cases notWritten
    next => simp

/-- A quoted text is read as that text, up to its end. Three marks at its start would mean
something else, but no mark follows an empty text. -/
theorem quoted?_flatMap_writeChar {rest : List Char} (chars : List Char)
    (noMark : rest.head? ≠ some '"') :
    quoted? '"' (chars.flatMap writeChar ++ '"' :: rest) = some (chars, false, rest) := by
  rw [quoted?, if_neg, body?_flatMap_writeChar]
  · rfl
  · intro marks
    cases chars with
    | nil =>
        cases rest with
        | nil => cases marks
        | cons first rest =>
            simp at marks noMark
            exact noMark marks
    | cons char chars =>
        rw [List.flatMap_cons, List.append_assoc] at marks
        have isQuote := congrArg List.head? marks
        rw [List.head?_take, if_neg (by decide)] at isQuote
        exact head?_writeChar_ne char _ isQuote

theorem isPlain_toUpper_digit (digit : Fin 16) : isPlain (Hex.digit digit).toUpper = true := by
  revert digit
  decide

theorem isPlain_of_mem_writeChar {char : Char} :
    ∀ other ∈ writeChar char, isPlain other = true := by
  unfold writeChar
  split
  next letter written =>
    unfold escapeLetter? at written
    split at written
    all_goals cases written
    all_goals decide
  next =>
    split
    next plain => exact List.forall_mem_singleton.mpr plain
    next =>
      refine List.forall_mem_append.mpr ⟨by decide, ?_⟩
      rw [List.forall_mem_map]
      exact Hex.forall_mem_padded isPlain_toUpper_digit 4 char.toNat

end Asn1.Toml
