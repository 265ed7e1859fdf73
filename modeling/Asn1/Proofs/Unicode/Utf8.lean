import Asn1.Unicode.Utf8

/-!
# Well-formed UTF-8

Reading takes a character where its encoding stands and nowhere else. So the octets that are read
without a defect are the encodings of texts, and each of them is read as its text.
-/

namespace Asn1.Utf8

theorem lead?_eq (octet : Nat) :
    lead? octet =
      if octet < 0xc2 then none
      else if octet < 0xe0 then some ⟨2, 0x80, 0xbf⟩
      else if octet < 0xf0 then
        some ⟨3, if octet = 0xe0 then 0xa0 else 0x80, if octet = 0xed then 0x9f else 0xbf⟩
      else if octet < 0xf5 then
        some ⟨4, if octet = 0xf0 then 0x90 else 0x80, if octet = 0xf4 then 0x8f else 0xbf⟩
      else none := by
  unfold lead?
  grind

theorem toNat_val_ofNat {codePoint : Nat} (valid : codePoint.isValidChar) :
    (Char.ofNat codePoint).val.toNat = codePoint := by
  rw [Char.ofNat, dif_pos valid]
  rfl

theorem ofNat_eq_of_toNat_eq (octet : UInt8) {number : Nat} (same : octet.toNat = number) :
    UInt8.ofNat number = octet := by
  rw [← same, UInt8.ofNat_toNat]

theorem isContinuation_iff {octet : UInt8} :
    isContinuation octet = true ↔ octet.toNat / 64 = 2 := by
  simp [isContinuation]

structure IsPair (leading second : UInt8) : Prop where
  leading_ge : 0xc2 ≤ leading.toNat
  leading_lt : leading.toNat < 0xe0
  secondContinues : second.toNat / 64 = 2

structure IsTriple (leading second third : UInt8) : Prop where
  leading_ge : 0xe0 ≤ leading.toNat
  leading_lt : leading.toNat < 0xf0
  secondContinues : second.toNat / 64 = 2
  notShorter : leading.toNat = 0xe0 → 0xa0 ≤ second.toNat
  notSurrogate : leading.toNat = 0xed → second.toNat < 0xa0
  thirdContinues : third.toNat / 64 = 2

structure IsQuadruple (leading second third fourth : UInt8) : Prop where
  leading_ge : 0xf0 ≤ leading.toNat
  leading_lt : leading.toNat < 0xf5
  secondContinues : second.toNat / 64 = 2
  notShorter : leading.toNat = 0xf0 → 0x90 ≤ second.toNat
  notBeyond : leading.toNat = 0xf4 → second.toNat < 0x90
  thirdContinues : third.toNat / 64 = 2
  fourthContinues : fourth.toNat / 64 = 2

section Shapes

variable {leading second third fourth : UInt8} {rest : Octets}

theorem IsPair.first_eq (shape : IsPair leading second) :
    first leading (second :: rest) =
      .ok (Char.ofNat (leading.toNat % 32 * 64 + payload second)) := by
  obtain ⟨leadingLow, leadingHigh, secondContinues⟩ := shape
  rw [first, if_neg (by omega), lead?_eq, if_neg (by omega), if_pos leadingHigh]
  dsimp only
  rw [if_neg (by omega), if_pos rfl]

theorem IsTriple.first_eq (shape : IsTriple leading second third) :
    first leading (second :: third :: rest) =
      .ok (Char.ofNat (leading.toNat % 16 * 4096 + payload second * 64 + payload third)) := by
  obtain ⟨leadingLow, leadingHigh, secondContinues, notShorter, notSurrogate, thirdContinues⟩ :=
    shape
  rw [first, if_neg (by omega), lead?_eq, if_neg (by omega), if_neg (by omega), if_pos leadingHigh]
  dsimp only
  rw [if_neg (by grind), if_neg (by decide), isContinuation_iff.mpr thirdContinues]
  rfl

theorem IsQuadruple.first_eq (shape : IsQuadruple leading second third fourth) :
    first leading (second :: third :: fourth :: rest) =
      .ok (Char.ofNat (leading.toNat % 8 * 262144 + payload second * 4096 + payload third * 64
        + payload fourth)) := by
  obtain ⟨leadingLow, leadingHigh, secondContinues, notShorter, notBeyond, thirdContinues,
    fourthContinues⟩ := shape
  rw [first, if_neg (by omega), lead?_eq, if_neg (by omega), if_neg (by omega), if_neg (by omega),
    if_pos leadingHigh]
  dsimp only
  rw [if_neg (by grind), if_neg (by decide), isContinuation_iff.mpr thirdContinues,
    isContinuation_iff.mpr fourthContinues]
  rfl

theorem IsPair.utf8EncodeChar_eq (shape : IsPair leading second) :
    String.utf8EncodeChar (Char.ofNat (leading.toNat % 32 * 64 + payload second)) =
      [leading, second] := by
  obtain ⟨leadingLow, leadingHigh, secondContinues⟩ := shape
  unfold payload String.utf8EncodeChar
  dsimp only
  rw [toNat_val_ofNat (.inl (by omega)), if_neg (by omega), if_pos (by omega),
    ofNat_eq_of_toNat_eq leading (by omega),
    ofNat_eq_of_toNat_eq second (by omega)]

theorem IsTriple.utf8EncodeChar_eq (shape : IsTriple leading second third) :
    String.utf8EncodeChar
        (Char.ofNat (leading.toNat % 16 * 4096 + payload second * 64 + payload third)) =
      [leading, second, third] := by
  obtain ⟨leadingLow, leadingHigh, secondContinues, notShorter, notSurrogate, thirdContinues⟩ :=
    shape
  unfold payload String.utf8EncodeChar
  dsimp only
  rw [toNat_val_ofNat (by unfold Nat.isValidChar; omega), if_neg (by omega), if_neg (by omega),
    if_pos (by omega), ofNat_eq_of_toNat_eq leading (by omega),
    ofNat_eq_of_toNat_eq second (by omega),
    ofNat_eq_of_toNat_eq third (by omega)]

theorem IsQuadruple.utf8EncodeChar_eq (shape : IsQuadruple leading second third fourth) :
    String.utf8EncodeChar (Char.ofNat (leading.toNat % 8 * 262144 + payload second * 4096
        + payload third * 64 + payload fourth)) =
      [leading, second, third, fourth] := by
  obtain ⟨leadingLow, leadingHigh, secondContinues, notShorter, notBeyond, thirdContinues,
    fourthContinues⟩ := shape
  unfold payload String.utf8EncodeChar
  dsimp only
  rw [toNat_val_ofNat (by unfold Nat.isValidChar; omega), if_neg (by omega), if_neg (by omega),
    if_neg (by omega), ofNat_eq_of_toNat_eq leading (by omega),
    ofNat_eq_of_toNat_eq second (by omega),
    ofNat_eq_of_toNat_eq third (by omega),
    ofNat_eq_of_toNat_eq fourth (by omega)]

end Shapes

/-- What is read as a character is its encoding. -/
theorem prefix_of_first {leading : UInt8} {rest : Octets} {char : Char}
    (found : first leading rest = .ok char) : String.utf8EncodeChar char <+: leading :: rest := by
  rw [first] at found
  split at found
  · next ascii =>
      cases found
      simp only [String.utf8EncodeChar]
      rw [toNat_val_ofNat (.inl (by omega)), if_pos (by omega), UInt8.ofNat_toNat]
      exact ⟨rest, rfl⟩
  split at found
  · cases found
  next lead isLead =>
  rw [lead?_eq] at isLead
  split at found
  · cases found
  next second rest =>
  split at found
  · cases found
  next within =>
  rw [not_or, Nat.not_lt, Nat.not_lt] at within
  split at found
  · next two =>
      have shape : IsPair leading second := by
        constructor <;> grind
      cases found
      rw [shape.utf8EncodeChar_eq]
      exact ⟨rest, rfl⟩
  split at found
  · cases found
  next third rest =>
  split at found
  · cases found
  next thirdContinues =>
  rw [Bool.not_eq_false, isContinuation_iff] at thirdContinues
  split at found
  · next three =>
      have shape : IsTriple leading second third := by
        constructor <;> grind
      cases found
      rw [shape.utf8EncodeChar_eq]
      exact ⟨rest, rfl⟩
  split at found
  · cases found
  next fourth rest =>
  split at found
  · cases found
  next fourthContinues =>
  rw [Bool.not_eq_false, isContinuation_iff] at fourthContinues
  have shape : IsQuadruple leading second third fourth := by
    constructor <;> grind
  cases found
  rw [shape.utf8EncodeChar_eq]
  exact ⟨rest, rfl⟩

section Sizes

variable {char : Char}

theorem exists_pair (low : 0x80 ≤ char.val.toNat) (high : char.val.toNat < 0x800) :
    ∃ leading second, String.utf8EncodeChar char = [leading, second] ∧ IsPair leading second ∧
      leading.toNat % 32 * 64 + payload second = char.val.toNat := by
  rw [String.utf8EncodeChar, if_neg (by omega), if_pos (by omega)]
  refine ⟨_, _, rfl, ?shape, ?number⟩
  case shape => constructor <;> simp only [UInt8.toNat_ofNat'] <;> omega
  case number =>
    unfold payload
    simp only [UInt8.toNat_ofNat']
    omega

theorem exists_triple (low : 0x800 ≤ char.val.toNat) (high : char.val.toNat < 0x10000) :
    ∃ leading second third, String.utf8EncodeChar char = [leading, second, third] ∧
      IsTriple leading second third ∧
      leading.toNat % 16 * 4096 + payload second * 64 + payload third = char.val.toNat := by
  have valid : char.val.toNat < 0xd800 ∨ 0xdfff < char.val.toNat ∧ char.val.toNat < 0x110000 :=
    char.valid
  rw [String.utf8EncodeChar, if_neg (by omega), if_neg (by omega), if_pos (by omega)]
  refine ⟨_, _, _, rfl, ?shape, ?number⟩
  case shape => constructor <;> simp only [UInt8.toNat_ofNat'] <;> omega
  case number =>
    unfold payload
    simp only [UInt8.toNat_ofNat']
    omega

theorem exists_quadruple (low : 0x10000 ≤ char.val.toNat) :
    ∃ leading second third fourth,
      String.utf8EncodeChar char = [leading, second, third, fourth] ∧
      IsQuadruple leading second third fourth ∧
      leading.toNat % 8 * 262144 + payload second * 4096 + payload third * 64 + payload fourth =
        char.val.toNat := by
  have valid : char.val.toNat < 0xd800 ∨ 0xdfff < char.val.toNat ∧ char.val.toNat < 0x110000 :=
    char.valid
  rw [String.utf8EncodeChar, if_neg (by omega), if_neg (by omega), if_neg (by omega)]
  refine ⟨_, _, _, _, rfl, ?shape, ?number⟩
  case shape => constructor <;> simp only [UInt8.toNat_ofNat'] <;> omega
  case number =>
    unfold payload
    simp only [UInt8.toNat_ofNat']
    omega

end Sizes

/-- The encoding of a character is read as that character, whatever follows. -/
theorem first_of_utf8EncodeChar {char : Char} {leading : UInt8} {tail : Octets}
    (encoded : String.utf8EncodeChar char = leading :: tail) (rest : Octets) :
    first leading (tail ++ rest) = .ok char := by
  have written : Char.ofNat char.val.toNat = char := Char.ofNat_toNat char
  by_cases one : char.val.toNat < 0x80
  · rw [String.utf8EncodeChar, if_pos (by omega)] at encoded
    cases encoded
    have leading_eq := UInt8.toNat_ofNat' (n := char.val.toNat)
    rw [first, if_pos (by omega), leading_eq, Nat.mod_eq_of_lt (by omega), written]
  by_cases two : char.val.toNat < 0x800
  · obtain ⟨_, _, isPair, shape, number⟩ := exists_pair (by omega) two
    cases encoded.symm.trans isPair
    rw [List.singleton_append, shape.first_eq, number, written]
  by_cases three : char.val.toNat < 0x10000
  · obtain ⟨_, _, _, isTriple, shape, number⟩ := exists_triple (by omega) three
    cases encoded.symm.trans isTriple
    rw [List.cons_append, List.singleton_append, shape.first_eq, number, written]
  · obtain ⟨_, _, _, _, isQuadruple, shape, number⟩ := exists_quadruple (Nat.not_lt.mp three)
    cases encoded.symm.trans isQuadruple
    rw [List.cons_append, List.cons_append, List.singleton_append, shape.first_eq, number, written]

theorem exists_of_utf8EncodeChar (char : Char) :
    ∃ leading tail, String.utf8EncodeChar char = leading :: tail := by
  rw [← List.ne_nil_iff_exists_cons, ← List.length_pos_iff, String.length_utf8EncodeChar]
  exact char.utf8Size_pos

/-- Octets start with a character exactly if its encoding stands there. -/
theorem first_eq_ok_iff {leading : UInt8} {rest : Octets} {char : Char} :
    first leading rest = .ok char ↔ String.utf8EncodeChar char <+: leading :: rest := by
  constructor
  · exact prefix_of_first
  · rintro ⟨left, split⟩
    obtain ⟨_, tail, encoded⟩ := exists_of_utf8EncodeChar char
    rw [encoded] at split
    cases split
    exact first_of_utf8EncodeChar encoded left

/-- An octet below 128 is the encoding of a character and part of no other encoding. -/
theorem toNat_eq_of_mem_utf8EncodeChar {char : Char} {octet : UInt8}
    (isMember : octet ∈ String.utf8EncodeChar char) (small : octet.toNat < 128) :
    char.toNat = octet.toNat := by
  have same : char.toNat = char.val.toNat := rfl
  rw [String.utf8EncodeChar] at isMember
  split at isMember
  · next ascii =>
      rw [List.eq_of_mem_singleton isMember, UInt8.toNat_ofNat', Nat.mod_eq_of_lt (by omega), same]
  · exfalso
    split at isMember
    · simp only [List.mem_cons, List.not_mem_nil, or_false] at isMember
      rcases isMember with rfl | rfl <;> simp only [UInt8.toNat_ofNat'] at small <;> omega
    split at isMember
    · simp only [List.mem_cons, List.not_mem_nil, or_false] at isMember
      rcases isMember with rfl | rfl | rfl <;> simp only [UInt8.toNat_ofNat'] at small <;> omega
    · simp only [List.mem_cons, List.not_mem_nil, or_false] at isMember
      rcases isMember with rfl | rfl | rfl | rfl <;>
        simp only [UInt8.toNat_ofNat'] at small <;> omega

theorem drop_utf8Size (char : Char) (rest : Octets) :
    (String.utf8EncodeChar char ++ rest).drop char.utf8Size = rest := by
  rw [← String.length_utf8EncodeChar, List.drop_left]

/-- An encoded character is read first, whatever follows. -/
theorem read_utf8EncodeChar_append (char : Char) (rest : Octets) :
    read (String.utf8EncodeChar char ++ rest) = (char :: (read rest).1, (read rest).2) := by
  obtain ⟨leading, tail, encoded⟩ := exists_of_utf8EncodeChar char
  have dropped := drop_utf8Size char rest
  rw [encoded, List.cons_append] at dropped ⊢
  rw [read, first_of_utf8EncodeChar encoded]
  dsimp only
  rw [dropped]

theorem read_encode_append (chars : List Char) (rest : Octets) :
    read (encode chars ++ rest) = (chars ++ (read rest).1, (read rest).2) := by
  induction chars with
  | nil => rfl
  | cons char chars inductionHypothesis =>
      rw [encode_cons, List.append_assoc, read_utf8EncodeChar_append, inductionHypothesis]
      rfl

theorem read_encode (chars : List Char) : read (encode chars) = (chars, none) := by
  rw [← List.append_nil (encode chars), read_encode_append, read_nil, List.append_nil]

/-- Octets that are read without a defect are the encoding of what is read. -/
theorem encode_read {octets : Octets} (clean : (read octets).2 = none) :
    encode (read octets).1 = octets := by
  fun_induction read octets with
  | case1 => rfl
  | case2 => cases clean
  | case3 leading rest char isFirst later inductionHypothesis =>
      obtain ⟨left, split⟩ := prefix_of_first isFirst
      have encoded := inductionHypothesis clean
      rw [← split, drop_utf8Size] at encoded
      dsimp only [later]
      rw [encode_cons, ← split, drop_utf8Size, encoded]

/-- What follows a text is the rest of a longer text only if it is the encoding of that rest. -/
theorem exists_of_encode_append {chars all : List Char} {left : Octets}
    (split : encode chars ++ left = encode all) : ∃ rest, left = encode rest := by
  have found := read_encode all
  rw [← split, read_encode_append] at found
  exact ⟨(read left).1, (encode_read (congrArg Prod.snd found)).symm⟩

/-- The characters of octets below 128 are encoded as these octets. -/
theorem encode_map_ofNat {octets : Octets} (ascii : ∀ octet ∈ octets, octet.toNat < 128) :
    encode (octets.map fun octet => Char.ofNat octet.toNat) = octets := by
  induction octets with
  | nil => rfl
  | cons octet octets inductionHypothesis =>
      rw [List.forall_mem_cons] at ascii
      have number : (Char.ofNat octet.toNat).val.toNat = octet.toNat :=
        toNat_val_ofNat (.inl (by omega))
      rw [List.map_cons, encode_cons, inductionHypothesis ascii.2, String.utf8EncodeChar, number,
        if_pos (by omega), UInt8.ofNat_toNat]
      rfl

theorem exists_eq_encode_iff {octets : Octets} :
    (∃ chars, octets = encode chars) ↔ ∃ text, octets = ofString text := by
  constructor
  · rintro ⟨chars, rfl⟩
    exact ⟨String.ofList chars, by rw [ofString, String.toList_ofList]⟩
  · rintro ⟨text, rfl⟩
    exact ⟨text.toList, rfl⟩

/-- Octets are decoded to a text exactly if they are its encoding. -/
theorem decode_eq_ok_iff {octets : Octets} {text : String} :
    decode octets = .ok text ↔ octets = ofString text := by
  constructor
  · intro decoded
    unfold decode at decoded
    split at decoded
    · next chars found =>
        cases decoded
        have encoded := encode_read (congrArg Prod.snd found)
        rw [found] at encoded
        rw [ofString, String.toList_ofList, encoded]
    · cases decoded
  · rintro rfl
    unfold decode ofString
    rw [read_encode]
    dsimp only
    rw [String.ofList_toList]

/-- The well-formed octets are the encodings of texts. -/
theorem isWellFormed_iff {octets : Octets} :
    isWellFormed octets = true ↔ ∃ text, octets = ofString text := by
  simp only [← decode_eq_ok_iff]
  unfold isWellFormed decode
  rcases read octets with ⟨chars, _ | defect⟩
  · exact ⟨fun _ => ⟨_, rfl⟩, fun _ => rfl⟩
  · constructor
    · intro clean
      cases clean
    · rintro ⟨text, decoded⟩
      cases decoded

end Asn1.Utf8
