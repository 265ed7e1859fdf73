import Asn1.Listing
import Asn1.Proofs.Encoding.Places
import Asn1.Proofs.Quoted

/-!
# The listing of a value

A listing has a line for each value, in which nothing but its indentation and its line end can be
taken for the structure of the tree. The shape of the tree is read back from how far the lines are
indented, and text from between its quotation marks.
-/

namespace Asn1

open Unicode (NoControl)

/-- A tree of which nothing is known but how it branches. -/
inductive Shape where
  | node (children : List Shape)

namespace Shape

/-- The trees whose nodes have these depths in order. Below a node stands what is deeper than it, up
to the next node that is not. -/
def ofDepths : List Nat → List Shape
  | [] => []
  | depth :: rest =>
      node (ofDepths (rest.takeWhile (depth < ·))) :: ofDepths (rest.dropWhile (depth < ·))
termination_by depths => depths.length
decreasing_by
  · exact Nat.lt_succ_of_le (List.takeWhile_prefix _).length_le
  · exact Nat.lt_succ_of_le (List.dropWhile_suffix _).length_le

def indentation (line : List Char) : Nat := (line.takeWhile (· = ' ')).length / 2

/-- The trees that a listing shows. What stands behind the last line end is no line. -/
def ofListing (output : List Char) : List Shape :=
  ofDepths ((output.splitOn '\n').dropLast.map indentation)

theorem ofDepths_cons_append {depth : Nat} {below rest : List Nat}
    (deeper : ∀ other ∈ below, depth < other) (stops : ∀ other ∈ rest.head?, other ≤ depth) :
    ofDepths (depth :: (below ++ rest)) = node (ofDepths below) :: ofDepths rest := by
  have decided : ∀ other ∈ below, decide (depth < other) = true :=
    fun other membership => decide_eq_true (deeper other membership)
  have taken : rest.takeWhile (depth < ·) = [] ∧ rest.dropWhile (depth < ·) = rest := by
    cases rest with
    | nil => exact ⟨rfl, rfl⟩
    | cons first others =>
        have notDeeper : ¬ depth < first := Nat.not_lt.mpr (stops first rfl)
        simp [notDeeper]
  rw [ofDepths, List.takeWhile_append_of_pos decided, List.dropWhile_append_of_pos decided,
    taken.1, taken.2, List.append_nil]

end Shape

namespace Value

def shape : Value → Shape
  | constructed _ _ elements => .node (elements.map shape)
  | _ => .node []

theorem shape_of_leaf {value : Value} (leaf : value.isConstructed = false) :
    value.shape = .node [] := by
  cases value with
  | constructed => cases leaf
  | _ => rw [shape]; nofun

theorem le_depth_of_mem_outlines {values : List Value} {depth : Nat}
    (each : ∀ value ∈ values, ∀ start, ∀ place ∈ value.outline depth start, depth ≤ place.depth)
    (start : Nat) (content : Octets) :
    ∀ place ∈ outlines depth start content values, depth ≤ place.depth := by
  induction values generalizing start content with
  | nil => nofun
  | cons value values inductionHypothesis =>
      rw [List.forall_mem_cons] at each
      rw [outlines, List.forall_mem_append]
      exact ⟨each.1 _, inductionHypothesis each.2 _ _⟩

theorem le_depth_of_mem_outline (value : Value) (depth start : Nat) :
    ∀ place ∈ value.outline depth start, depth ≤ place.depth := by
  induction value using Value.induction generalizing depth start with
  | leaf value leaf =>
      rw [outline_of_leaf leaf, List.forall_mem_singleton]
  | constructed tag body elements inductionHypothesis =>
      rw [outline, List.forall_mem_cons]
      refine ⟨Nat.le_refl depth, fun place membership => ?_⟩
      have deeper := le_depth_of_mem_outlines (fun element isElement start =>
        inductionHypothesis element isElement (depth + 1) start) start body place membership
      exact Nat.le_of_succ_le deeper

theorem head?_outlines {values : List Value} {depth start : Nat} {content : Octets} :
    ∀ other ∈ ((outlines depth start content values).map Place.depth).head?, other ≤ depth := by
  cases values with
  | nil => nofun
  | cons value values =>
      intro other isHead
      cases value <;> cases isHead <;> exact Nat.le_refl depth

theorem ofDepths_outlines {values : List Value} {depth : Nat}
    (each : ∀ value ∈ values, ∀ start rest, (∀ other ∈ rest.head?, other ≤ depth) →
      Shape.ofDepths ((value.outline depth start).map Place.depth ++ rest) =
        value.shape :: Shape.ofDepths rest)
    (start : Nat) (content : Octets) :
    Shape.ofDepths ((outlines depth start content values).map Place.depth) =
      values.map shape := by
  induction values generalizing start content with
  | nil =>
      rw [outlines, List.map_nil, Shape.ofDepths]
      rfl
  | cons value values inductionHypothesis =>
      rw [List.forall_mem_cons] at each
      rw [outlines, List.map_append, each.1 _ _ head?_outlines, inductionHypothesis each.2,
        List.map_cons]

/-- The depths of a value and of everything nested in it show its shape. -/
theorem ofDepths_outline_append (value : Value) (depth start : Nat) (rest : List Nat)
    (stops : ∀ other ∈ rest.head?, other ≤ depth) :
    Shape.ofDepths ((value.outline depth start).map Place.depth ++ rest) =
      value.shape :: Shape.ofDepths rest := by
  induction value using Value.induction generalizing depth start rest with
  | leaf value leaf =>
      have alone := Shape.ofDepths_cons_append (List.forall_mem_nil (depth < ·)) stops
      rw [outline_of_leaf leaf, shape_of_leaf leaf]
      rw [Shape.ofDepths] at alone
      exact alone
  | constructed tag body elements inductionHypothesis =>
      -- What is nested here is deeper and what follows is not, so that the depths part there.
      have deeper : ∀ other ∈ (outlines (depth + 1) start body elements).map Place.depth,
          depth < other := by
        rw [List.forall_mem_map]
        exact le_depth_of_mem_outlines (fun element _ start =>
          element.le_depth_of_mem_outline (depth + 1) start) start body
      have below := ofDepths_outlines (fun element isElement start =>
        inductionHypothesis element isElement (depth + 1) start) start body
      rw [outline, List.map_cons, List.cons_append, Shape.ofDepths_cons_append deeper stops, below,
        shape]

/-- What stands on the line of a value behind the indentation. -/
def label (value : Value) : String :=
  value.description ++ " [" ++ Decimal.text value.body.length ++ "]" ++ value.remark

theorem line_eq (depth : Nat) (value : Value) :
    value.line depth = String.ofList (List.replicate (depth * 2) ' ') ++ value.label ++ "\n" := by
  simp only [line, label, String.append_assoc]

theorem lines_of_leaf {value : Value} (leaf : value.isConstructed = false) (depth : Nat) :
    value.lines depth = [value.line depth] := by
  cases value with
  | constructed => cases leaf
  | _ => rw [lines]; nofun

theorem linesAll_eq {values : List Value} {depth : Nat}
    (each : ∀ value ∈ values, ∀ start, value.lines depth =
      (value.outline depth start).map fun place => place.value.line place.depth)
    (start : Nat) (content : Octets) :
    linesAll depth values =
      (outlines depth start content values).map fun place => place.value.line place.depth := by
  induction values generalizing start content with
  | nil => rfl
  | cons value values inductionHypothesis =>
      rw [List.forall_mem_cons] at each
      rw [linesAll, outlines, List.map_append, ← each.1, ← inductionHypothesis each.2]

/-- There is one line for each node, in order. -/
theorem lines_eq (value : Value) (depth start : Nat) :
    value.lines depth =
      (value.outline depth start).map fun place => place.value.line place.depth := by
  induction value using Value.induction generalizing depth start with
  | leaf value leaf =>
      rw [lines_of_leaf leaf, outline_of_leaf leaf]
      rfl
  | constructed tag body elements inductionHypothesis =>
      rw [lines, outline, List.map_cons, linesAll_eq fun element membership start =>
        inductionHypothesis element membership (depth + 1) start]

end Value

namespace Tag

/-- Descriptions start with no space, and there are no quotation marks in them either. -/
theorem description_plain (tag : Tag) :
    tag.description.toList ≠ [] ∧ tag.description.toList.head? ≠ some ' ' ∧
      ∀ char ∈ tag.description.toList, Unicode.isControl char = false ∧ char ≠ '"' := by
  obtain ⟨tagClass, number⟩ := tag
  revert number
  cases tagClass <;> decide +kernel

theorem noControl_description (tag : Tag) : NoControl tag.description :=
  fun char membership => (tag.description_plain.2.2 char membership).1

end Tag

theorem ObjectId.noControl_dotted (id : ObjectId) : NoControl id.dotted := by
  unfold dotted
  split
  · next components _ =>
      apply Unicode.noControl_intercalate (by decide)
      rw [List.forall_mem_map]
      exact fun component _ => Unicode.noControl_decimal component.toNat
  · decide

theorem UtcTime.noControl_offsetText {offset : Int} {between : String}
    (noControl : NoControl between) : NoControl (offsetText offset between) := by
  have sign : NoControl (if offset < 0 then "-" else "+") := by
    split <;> decide
  simp [offsetText, twoDigits, sign, noControl]

theorem UtcTime.noControl_text (time : UtcTime) : NoControl time.text := by
  have marks : NoControl "-" ∧ NoControl ":" ∧ NoControl " " ∧ NoControl " (UTC" ∧
      NoControl ")" := by decide
  cases given : time.offset? with
  | none => simp [text, dateText, clockText, twoDigits, given, marks]
  | some offset =>
      have zone : NoControl (offsetText offset "") := noControl_offsetText Unicode.noControl_empty
      simp [text, dateText, clockText, twoDigits, given, marks, zone]

namespace Value

/-- Content that is not text is shown without control characters. -/
theorem noControl_rendered {value : Value} (notText : ∀ string, value ≠ text string) :
    NoControl value.rendered := by
  cases value with
  | constructed => exact Unicode.noControl_empty
  | boolean octet =>
      change NoControl (if octet = 0 then "FALSE" else "TRUE")
      split <;> decide
  | objectId id => exact id.noControl_dotted
  | text string => exact absurd rfl (notText string)
  | utcTime body time => exact time.noControl_text
  | generic tag body =>
      have rest : NoControl (if previewSize < body.length then "..." else "") := by
        split <;> decide
      simp [rendered, rest]

theorem noControl_remark (value : Value) : NoControl value.remark := by
  have colon : NoControl ": " := by decide
  unfold remark
  split
  · decide
  · simp [colon]
  · next notConstructed notText =>
      split
      · decide
      · simp [colon, noControl_rendered notText]

theorem noControl_label (value : Value) : NoControl value.label := by
  have marks : NoControl " [" ∧ NoControl "]" := by decide
  have description := value.tag.noControl_description
  simp [label, Value.description, description, marks, value.noControl_remark]

def placedLabel (place : Place) : List Char :=
  List.replicate (2 * place.depth) ' ' ++ place.value.label.toList

theorem splitOn_flatMap_append {ending : Char} {lines : List (List Char)}
    (noEnding : ∀ line ∈ lines, ending ∉ line) :
    (lines.flatMap (· ++ [ending])).splitOn ending = lines ++ [[]] := by
  induction lines with
  | nil => rfl
  | cons line lines inductionHypothesis =>
      rw [List.forall_mem_cons] at noEnding
      rw [List.flatMap_cons, List.append_assoc, List.singleton_append,
        List.splitOn_append_cons_self_of_not_mem noEnding.1, inductionHypothesis noEnding.2]
      rfl

theorem toList_join_pieces (value : Value) :
    (String.join (value.pieces .text)).toList =
      ((value.outline 0 0).map placedLabel).flatMap (· ++ ['\n']) := by
  simp only [pieces, value.lines_eq 0 0, String.toList_join, List.flatMap_map, line_eq,
    placedLabel, String.toList_append, String.toList_ofList, Nat.mul_comm 2]
  rfl

theorem isControl_of_mem_placedLabel {place : Place} {char : Char}
    (membership : char ∈ placedLabel place) : Unicode.isControl char = false := by
  rcases List.mem_append.mp membership with isSpace | inLabel
  · rw [List.eq_of_mem_replicate isSpace]
    decide
  · exact place.value.noControl_label char inLabel

theorem newline_not_mem_placedLabel (place : Place) : '\n' ∉ placedLabel place := by
  intro membership
  have control := isControl_of_mem_placedLabel membership
  revert control
  decide

theorem splitOn_pieces (value : Value) :
    (String.join (value.pieces .text)).toList.splitOn '\n' =
      (value.outline 0 0).map placedLabel ++ [[]] := by
  rw [toList_join_pieces, splitOn_flatMap_append]
  rw [List.forall_mem_map]
  exact fun place _ => newline_not_mem_placedLabel place

theorem description_plain (value : Value) :
    value.description.toList ≠ [] ∧ value.description.toList.head? ≠ some ' ' ∧
      ∀ char ∈ value.description.toList, Unicode.isControl char = false ∧ char ≠ '"' :=
  value.tag.description_plain

theorem description_prefix_label (value : Value) :
    value.description.toList <+: value.label.toList := by
  simp only [label, String.toList_append, List.append_assoc]
  exact List.prefix_append _ _

theorem head?_label (value : Value) : value.label.toList.head? ≠ some ' ' := by
  obtain ⟨nonempty, noSpace, -⟩ := value.description_plain
  obtain ⟨rest, split⟩ := value.description_prefix_label
  rw [← split, List.head?_append_of_ne_nil _ nonempty]
  exact noSpace

theorem indentation_placedLabel (place : Place) :
    Shape.indentation (placedLabel place) = place.depth := by
  have spaces : ∀ char ∈ List.replicate (2 * place.depth) ' ', decide (char = ' ') = true :=
    fun char membership => decide_eq_true (List.eq_of_mem_replicate membership)
  have stops : place.value.label.toList.takeWhile (· = ' ') = [] := by
    have noSpace := place.value.head?_label
    cases shown : place.value.label.toList with
    | nil => rfl
    | cons first rest =>
        rw [shown] at noSpace
        simp only [List.head?_cons, ne_eq, Option.some.injEq] at noSpace
        simp [noSpace]
  rw [Shape.indentation, placedLabel, List.takeWhile_append_of_pos spaces, stops, List.append_nil,
    List.length_replicate]
  omega

/-- The first quotation mark on the line of a text opens the text. -/
theorem dropWhile_label (string : Text) :
    (text string).label.toList.dropWhile (· ≠ '"') =
      (Quoted.string (text string).rendered).toList := by
  have description := (text string).description_plain.2.2
  have before : ∀ char ∈ (text string).description.toList ++ " [".toList ++
      (Decimal.text (text string).body.length).toList ++ "]: ".toList,
      decide (char ≠ '"') = true := by
    simp only [List.forall_mem_append, decide_eq_true_eq]
    refine ⟨⟨⟨fun char membership => (description char membership).2, by decide⟩, ?_⟩, by decide⟩
    rw [Decimal.text, String.toList_ofList]
    exact Decimal.forall_mem_digits (by decide) _
  have split : (text string).label.toList = (text string).description.toList ++ " [".toList ++
      (Decimal.text (text string).body.length).toList ++ "]: ".toList ++
        (Quoted.string (text string).rendered).toList := by
    simp [label, remark]
  rw [split, List.dropWhile_append_of_pos before, Quoted.string, String.toList_ofList,
    Quoted.enclose, List.cons_append, List.dropWhile_cons_of_neg (by decide)]

/-- What the listing of a value has to show. -/
structure IsListing (value : Value) (output : List Char) : Prop where
  /-- There is a line for each node, indented by two spaces for each level, and nothing behind the
  last line end. -/
  lines : output.splitOn '\n' = (value.outline 0 0).map placedLabel ++ [[]]
  /-- What follows the indentation does not start with a space. -/
  described : ∀ node ∈ value.nodes, node.description.toList <+: node.label.toList ∧
    node.description.toList ≠ [] ∧ node.description.toList.head? ≠ some ' '
  /-- The lines show how the tree branches. -/
  shape : Shape.ofListing output = [value.shape]
  /-- There are no control characters but line ends. -/
  noControl : ∀ char ∈ output, Unicode.isControl char = true → char = '\n'
  /-- What is quoted is the text. -/
  quoted : ∀ string, text string ∈ value.nodes →
    Quoted.unquote ((text string).label.toList.dropWhile (· ≠ '"')) =
      some (string.decode.toOption.getD "[invalid text]")

/-- The listing of a value shows the tree, and no text in it can make it show another one. -/
theorem isListing_pieces (value : Value) :
    value.IsListing (String.join (value.pieces .text)).toList where
  lines := value.splitOn_pieces
  described := by
    intro node _
    obtain ⟨nonempty, noSpace, -⟩ := node.description_plain
    exact ⟨node.description_prefix_label, nonempty, noSpace⟩
  shape := by
    have shown := value.ofDepths_outline_append 0 0 [] nofun
    rw [Shape.ofDepths, List.append_nil] at shown
    rw [Shape.ofListing, splitOn_pieces, List.dropLast_concat, List.map_map, ← shown]
    congr 1
    apply List.map_congr_left
    exact fun place _ => indentation_placedLabel place
  noControl := by
    intro char membership control
    rw [toList_join_pieces, List.flatMap_map, List.mem_flatMap] at membership
    obtain ⟨place, -, onLine⟩ := membership
    rcases List.mem_append.mp onLine with onLine | isEnd
    · rw [isControl_of_mem_placedLabel onLine] at control
      cases control
    · exact List.eq_of_mem_singleton isEnd
  quoted := by
    intro string _
    rw [dropWhile_label, Quoted.unquote_string, rendered]
    cases string.decode <;> rfl

end Value

end Asn1
