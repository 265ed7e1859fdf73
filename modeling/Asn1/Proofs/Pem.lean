import Asn1.Pem
import Asn1.Proofs.Base64

/-!
# A block in a file

The octets of a file's first block are found whatever stands around it and however its lines are
cut. The two labels have to be the same.
-/

namespace Asn1.Pem

/-- A line feed, with or without a carriage return before it. -/
def lineEnds : List Octets := [[0x0a], [0x0d, 0x0a]]

/-- Content cut into lines, none of which is empty. -/
inductive IsLines : Octets → Octets → Prop
  | nil : IsLines [] []
  | cons {line ending content lines} :
      line ≠ [] → ending ∈ lineEnds → IsLines content lines →
      IsLines (line ++ content) (line ++ (ending ++ lines))

/-- A label is a text without dashes, and not an empty one. -/
structure IsLabel (label : String) : Prop where
  nonempty : label ≠ ""
  noDash : '-' ∉ label.toList

/-- A file in which a block has some labels and some contents. There is no dash in front of it. -/
inductive IsFile (beginLabel endLabel : String) (contents : Octets) : Octets → Prop
  | mk {lead gap lines trail} :
      0x2d ∉ lead → (∀ octet ∈ gap, isBlank octet = true) →
      IsLines (Base64.encode contents) lines →
      IsFile beginLabel endLabel contents
        (lead ++ (beginMark ++ (Utf8.ofString beginLabel ++ (dashes ++ (gap ++ (lines ++
          (endMark ++ (Utf8.ofString endLabel ++ (dashes ++ trail)))))))))

theorem IsFile.append {beginLabel endLabel : String} {contents file : Octets}
    (isFile : IsFile beginLabel endLabel contents file) (more : Octets) :
    IsFile beginLabel endLabel contents (file ++ more) := by
  cases isFile with
  | mk noDash blank isLines =>
      simp only [List.append_assoc]
      exact .mk noDash blank isLines

section Search

variable {first next : UInt8} {others further front rest line : Octets}

theorem after?_append_of_not_mem (absent : first ∉ front) :
    after? (first :: others) (first :: others) (front ++ rest) =
      after? (first :: others) (first :: others) rest := by
  induction front with
  | nil => rfl
  | cons octet front inductionHypothesis =>
      rw [List.mem_cons, not_or] at absent
      rw [List.cons_append, after?, if_neg (Ne.symm absent.1), inductionHypothesis absent.2]

theorem after?_append (mark wanted rest : Octets) :
    after? mark wanted (wanted ++ rest) = some rest := by
  induction wanted with
  | nil => cases rest <;> rfl
  | cons octet wanted inductionHypothesis =>
      rw [List.cons_append, after?, if_pos rfl, inductionHypothesis]

/-- A mark is found behind octets that do not have its first one. -/
theorem cut?_append (mark : Octets) (starts : mark.head? = some first) (absent : first ∉ front)
    (rest : Octets) : cut? mark (front ++ (mark ++ rest)) = some (front, rest) := by
  obtain ⟨others, rfl⟩ := List.head?_eq_some_iff.mp starts
  rw [cut?, after?_append_of_not_mem absent, after?_append, Option.map_some]
  congr 2
  rw [List.take_left']
  simp only [List.length_append, List.length_cons]
  omega

/-- The search begins again within a line that has none of the octets that are wanted. -/
theorem after?_line (nonempty : line ≠ []) (unwanted : next ∉ line) (absent : first ∉ line) :
    after? (first :: others) (next :: further) (line ++ rest) =
      after? (first :: others) (first :: others) rest := by
  obtain ⟨octet, line, rfl⟩ := List.exists_cons_of_ne_nil nonempty
  rw [List.mem_cons, not_or] at unwanted absent
  rw [List.cons_append, after?, if_neg (Ne.symm unwanted.1), after?_append_of_not_mem absent.2]

end Search

section Lines

variable {content lines : Octets}

theorem not_mem_of_isWritten {octet : UInt8} {line : Octets} (small : octet.toNat ≤ 0x20)
    (written : ∀ octet ∈ line, Base64.IsWritten octet) : octet ∉ line := by
  intro isMember
  have visible := (written octet isMember).visible
  omega

theorem mem_lineEnds_iff {ending : Octets} :
    ending ∈ lineEnds ↔ ending = [0x0a] ∨ ending = [0x0d, 0x0a] := by
  simp [lineEnds]

/-- Each line takes the search for a mark of line ends back to where it began, so that it does not
succeed if what the end of one line leaves to come is more than that. -/
theorem after?_lines (first : UInt8) (others : Octets) (next : UInt8) (further : Octets)
    (firstSmall : first.toNat ≤ 0x20) (nextSmall : next.toNat ≤ 0x20)
    (ends : ∀ ending ∈ lineEnds, ∀ rest,
      after? (first :: others) (first :: others) (ending ++ rest) =
          after? (first :: others) (first :: others) rest ∨
        after? (first :: others) (first :: others) (ending ++ rest) =
          after? (first :: others) (next :: further) rest)
    (isLines : IsLines content lines) (written : ∀ octet ∈ content, Base64.IsWritten octet) :
    after? (first :: others) (first :: others) lines = none ∧
      after? (first :: others) (next :: further) lines = none := by
  induction isLines with
  | nil => exact ⟨rfl, rfl⟩
  | @cons line ending content lines nonempty isEnding _ inductionHypothesis =>
      rw [List.forall_mem_append] at written
      have noFirst : first ∉ line := not_mem_of_isWritten firstSmall written.1
      have noNext : next ∉ line := not_mem_of_isWritten nextSmall written.1
      have later := inductionHypothesis written.2
      have atEnd : after? (first :: others) (first :: others) (ending ++ lines) = none := by
        rcases ends ending isEnding lines with again | within
        · exact again.trans later.1
        · exact within.trans later.2
      exact ⟨(after?_line nonempty noFirst noFirst).trans atEnd,
        (after?_line nonempty noNext noFirst).trans atEnd⟩

/-- Lines that are not empty are not taken for headers. -/
theorem splitHeaders_of_isLines (isLines : IsLines content lines)
    (written : ∀ octet ∈ content, Base64.IsWritten octet) : splitHeaders lines = ([], lines) := by
  have noBlank : after? blankLine blankLine lines = none := by
    refine (after?_lines 0x0a [0x0a] 0x0a [] (by decide) (by decide) ?_ isLines written).1
    intro ending isEnding rest
    rcases mem_lineEnds_iff.mp isEnding with rfl | rfl
    · exact .inr rfl
    · exact .inr rfl
  have noWideBlank : after? wideBlankLine wideBlankLine lines = none := by
    refine (after?_lines 0x0d [0x0a, 0x0d, 0x0a] 0x0d [0x0a] (by decide) (by decide) ?_ isLines
      written).1
    intro ending isEnding rest
    rcases mem_lineEnds_iff.mp isEnding with rfl | rfl
    · exact .inl rfl
    · exact .inr rfl
  rw [splitHeaders, cut?, cut?, noBlank, noWideBlank]
  rfl

theorem isBlank_eq_false {octet : UInt8} (isWritten : Base64.IsWritten octet) :
    Unicode.isBlank (Char.ofNat octet.toNat) = false := by
  obtain ⟨low, high, -⟩ := isWritten.visible
  have number : (Char.ofNat octet.toNat).toNat = octet.toNat :=
    Utf8.toNat_val_ofNat (.inl (by omega))
  rw [Unicode.isBlank, number, decide_eq_false_iff_not]
  simp only [List.mem_cons, List.not_mem_nil, or_false]
  omega

/-- The lines are ASCII, and without white space they are their content. -/
theorem IsLines.ascii_and_filter (isLines : IsLines content lines)
    (written : ∀ octet ∈ content, Base64.IsWritten octet) :
    (∀ octet ∈ lines, octet.toNat < 0x80) ∧
      lines.filter (fun octet => !Unicode.isBlank (Char.ofNat octet.toNat)) = content := by
  induction isLines with
  | nil => exact ⟨List.forall_mem_nil _, rfl⟩
  | @cons line ending content lines nonempty isEnding _ inductionHypothesis =>
      rw [List.forall_mem_append] at written
      obtain ⟨laterAscii, laterFilter⟩ := inductionHypothesis written.2
      have endingAscii : ∀ octet ∈ ending, octet.toNat < 0x80 := by
        rcases mem_lineEnds_iff.mp isEnding with rfl | rfl <;> simp
      have endingFilter :
          ending.filter (fun octet => !Unicode.isBlank (Char.ofNat octet.toNat)) = [] := by
        rcases mem_lineEnds_iff.mp isEnding with rfl | rfl <;> decide
      have lineFilter :
          line.filter (fun octet => !Unicode.isBlank (Char.ofNat octet.toNat)) = line := by
        rw [List.filter_eq_self]
        intro octet isMember
        rw [isBlank_eq_false (written.1 octet isMember)]
        rfl
      constructor
      · rw [List.forall_mem_append, List.forall_mem_append]
        exact ⟨fun octet isMember => (written.1 octet isMember).visible.2.1, endingAscii,
          laterAscii⟩
      · rw [List.filter_append, List.filter_append, lineFilter, endingFilter, laterFilter,
          List.nil_append]

theorem contentsOf_lines {contents : Octets} (isLines : IsLines (Base64.encode contents) lines) :
    ∃ data, textOf lines = .ok data ∧ contentsOf data = .ok contents := by
  have written := Base64.isWritten_of_mem_encode contents
  obtain ⟨ascii, filtered⟩ := isLines.ascii_and_filter written
  have visible : ∀ octet ∈ Base64.encode contents, octet.toNat < 0x80 :=
    fun octet isMember => (written octet isMember).visible.2.1
  have decoded : Utf8.decode lines =
      .ok (String.ofList (lines.map fun octet => Char.ofNat octet.toNat)) := by
    rw [Utf8.decode_eq_ok_iff, Utf8.ofString, String.toList_ofList, Utf8.encode_map_ofNat ascii]
  refine ⟨_, by rw [textOf, decoded], ?_⟩
  rw [contentsOf, String.toList_ofList, List.filter_map]
  dsimp only [Function.comp_def]
  rw [filtered, Utf8.encode_map_ofNat visible, Base64.decode_encode]

/-- Neither a line nor what follows the lines starts with white space. -/
theorem dropWhile_isBlank_lines (isLines : IsLines content lines)
    (written : ∀ octet ∈ content, Base64.IsWritten octet) (rest : Octets) :
    (lines ++ (endMark ++ rest)).dropWhile isBlank = lines ++ (endMark ++ rest) := by
  cases isLines with
  | nil => rfl
  | @cons line ending content lines nonempty isEnding _ =>
      obtain ⟨octet, line, rfl⟩ := List.exists_cons_of_ne_nil nonempty
      obtain ⟨low, -⟩ := (written octet (List.mem_cons_self ..)).visible
      have notBlank : ¬ isBlank octet = true := by
        simp only [isBlank, List.mem_cons, List.not_mem_nil, or_false, decide_eq_true_eq]
        omega
      exact List.dropWhile_cons_of_neg notBlank

theorem dash_not_mem_lines (isLines : IsLines content lines)
    (written : ∀ octet ∈ content, Base64.IsWritten octet) : 0x2d ∉ lines := by
  induction isLines with
  | nil => exact List.not_mem_nil
  | @cons line ending content lines nonempty isEnding _ inductionHypothesis =>
      rw [List.forall_mem_append] at written
      simp only [List.mem_append, not_or]
      refine ⟨fun isMember => (written.1 _ isMember).visible.2.2 rfl, ?_,
        inductionHypothesis written.2⟩
      rcases mem_lineEnds_iff.mp isEnding with rfl | rfl <;> decide

end Lines

section Labels

variable {label beginLabel endLabel : String} {contents file : Octets}

theorem dash_not_mem_label (isLabel : IsLabel label) : 0x2d ∉ Utf8.ofString label := by
  intro isMember
  obtain ⟨char, isChar, isMember⟩ := List.mem_flatMap.mp isMember
  have isDash : char.toNat = '-'.toNat :=
    Utf8.toNat_eq_of_mem_utf8EncodeChar isMember (by decide)
  rw [Char.toNat_inj] at isDash
  exact isLabel.noDash (isDash ▸ isChar)

theorem textOf_ofString (text : String) : textOf (Utf8.ofString text) = .ok text := by
  rw [textOf, Utf8.decode_eq_ok_iff.mpr rfl]

/-- The block of a file has its labels and its lines, and no headers. -/
theorem find?_of_isFile (isBegin : IsLabel beginLabel) (isEnd : IsLabel endLabel)
    (isFile : IsFile beginLabel endLabel contents file) :
    ∃ lines, IsLines (Base64.encode contents) lines ∧
      find? file = some ⟨Utf8.ofString beginLabel, [], lines, Utf8.ofString endLabel⟩ := by
  cases isFile with
  | @mk lead gap lines trail noDash blank isLines =>
      have written := Base64.isWritten_of_mem_encode contents
      refine ⟨lines, isLines, ?_⟩
      have begun := cut?_append beginMark rfl noDash
      have named := cut?_append dashes rfl (dash_not_mem_label isBegin)
      have ended := cut?_append endMark rfl (dash_not_mem_lines isLines written)
      have endNamed := cut?_append dashes rfl (dash_not_mem_label isEnd)
      rw [find?, begun]
      simp only [Option.bind_eq_bind, Option.bind_some]
      rw [named]
      simp only [Option.bind_some]
      rw [List.dropWhile_append_of_pos blank, dropWhile_isBlank_lines isLines written, ended]
      simp only [Option.bind_some]
      rw [endNamed, splitHeaders_of_isLines isLines written]
      rfl

/-- The contents are found if the labels are the same, and only then. -/
theorem decode_of_isFile (isBegin : IsLabel beginLabel) (isEnd : IsLabel endLabel)
    (isFile : IsFile beginLabel endLabel contents file) :
    decode file =
      if beginLabel = endLabel then .ok contents else .error (.mismatch beginLabel endLabel) := by
  obtain ⟨lines, isLines, found⟩ := find?_of_isFile isBegin isEnd isFile
  obtain ⟨data, isText, contains⟩ := contentsOf_lines isLines
  have noHeaders : checkHeaders "" = .ok () := by
    have empty : "".toList = [] := by decide
    rw [checkHeaders, linesOf, dif_pos empty]
    rfl
  have noText : textOf [] = .ok "" := textOf_ofString ""
  rw [decode, found]
  dsimp only
  rw [Block.decode]
  simp only [textOf_ofString, bind, Except.bind, isBegin.nonempty, isEnd.nonempty, if_false,
    isText, contains, noText, noHeaders]
  by_cases same : beginLabel = endLabel
  · rw [if_neg (not_not_intro same), if_pos same]
    rfl
  · rw [if_pos same, if_neg same]
    rfl

end Labels

end Asn1.Pem
