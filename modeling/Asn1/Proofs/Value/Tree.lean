import Asn1.Length
import Asn1.Value

/-!
# Values as trees

How deep a value is, what is nested in it, and the encoding that only uses definite lengths in
their shortest form.
-/

namespace Asn1.Value

/-- A property of all values follows from that of their elements. -/
@[elab_as_elim]
theorem induction {motive : Value → Prop}
    (leaf : ∀ value : Value, value.isConstructed = false → motive value)
    (constructed : ∀ tag body elements, (∀ element ∈ elements, motive element) →
      motive (.constructed tag body elements))
    (value : Value) : motive value := by
  refine @Value.rec motive (fun elements => ∀ element ∈ elements, motive element)
    ?_ constructed ?_ ?_ ?_ ?_ ?_ ?_ value
  · exact fun tag body => leaf (.generic tag body) rfl
  · exact fun octet => leaf (.boolean octet) rfl
  · exact fun id => leaf (.objectId id) rfl
  · exact fun string => leaf (.text string) rfl
  · exact fun body time => leaf (.utcTime body time) rfl
  · intro element membership
    cases membership
  · intro head tail ofHead ofTail element membership
    rcases List.mem_cons.mp membership with rfl | membership
    · exact ofHead
    · exact ofTail element membership

def height : Value → Nat
  | constructed _ _ elements => (elements.map fun element => element.height + 1).foldr max 0
  | _ => 0

/-- The value and then everything nested in it, in order. -/
def nodes : Value → List Value
  | constructed tag body elements => constructed tag body elements :: elements.flatMap nodes
  | value => [value]

def framed (identifier : Identifier) (content : Octets) : Octets :=
  identifier.octet :: (Length.encode content.length ++ content)

/-- The encoding with all lengths in their shortest form. The content of a constructed value is
made up of the encodings of its elements. -/
def encode : Value → Octets
  | constructed tag _ elements => framed ⟨tag, true⟩ (elements.flatMap encode)
  | value => framed ⟨value.tag, false⟩ value.body

section Equations

variable {value : Value} (leaf : value.isConstructed = false)

include leaf

theorem height_of_leaf : value.height = 0 := by
  cases value with
  | constructed => cases leaf
  | _ => rw [height]; nofun

theorem nodes_of_leaf : value.nodes = [value] := by
  cases value with
  | constructed => cases leaf
  | _ => rw [nodes]; nofun

theorem encode_of_leaf : value.encode = framed ⟨value.tag, false⟩ value.body := by
  cases value with
  | constructed => cases leaf
  | _ => rw [encode]; nofun

end Equations

theorem add_height_constructed_le_iff {level limit : Nat} {tag : Tag} {body : Octets}
    {elements : List Value} :
    level + (constructed tag body elements).height ≤ limit ↔
      level ≤ limit ∧ ∀ element ∈ elements, level + 1 + element.height ≤ limit := by
  rw [height]
  induction elements with
  | nil => simp
  | cons element elements inductionHypothesis =>
      rw [List.map_cons, List.foldr_cons, List.forall_mem_cons, and_left_comm,
        ← inductionHypothesis]
      omega

theorem forall_mem_nodes_constructed_iff {property : Value → Prop} {tag : Tag} {body : Octets}
    {elements : List Value} :
    (∀ node ∈ (constructed tag body elements).nodes, property node) ↔
      property (constructed tag body elements) ∧
        ∀ element ∈ elements, ∀ node ∈ element.nodes, property node := by
  rw [nodes, List.forall_mem_cons]
  simp only [List.mem_flatMap, forall_exists_index, and_imp]
  grind

end Asn1.Value
