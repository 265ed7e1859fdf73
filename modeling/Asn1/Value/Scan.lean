import Asn1.Length
import Asn1.Value

/-!
Reading values from octets. How deep values may nest is the number the reading recurses on; the
values on one level are read one after another, each using up octets, until those are gone or an
end marker is found.
-/

namespace Asn1.Value

/-- Reads one item at the front of octets and uses up some of them whenever it succeeds. -/
structure ItemScan (α : Type) where
  run : Scan α
  forward : Scan.Forward run
  progress : Scan.Progress run

/-- Whether content octets come in ascending order. A proper prefix comes first. -/
def isAscending : List Octets → Bool
  | first :: second :: rest => !decide (second < first) && isAscending (second :: rest)
  | _ => true

/-- Whether a value with this tag may be constructed. Sequences and sets always may, tags of other
classes have no restrictions. -/
def mayBeConstructed (mode : Mode) (tag : Tag) : Bool :=
  !tag.isUniversal || tag.isConstructedType || (mode = .ber && tag.canBeConstructed)

/-- The value with these elements, if they may come in this order. Distinguished rules demand that
the elements of a set are in ascending order. -/
def ofElements? (mode : Mode) (tag : Tag) (body : Octets) (elements : List Value) : Option Value :=
  if mode = .der ∧ tag = .set ∧ isAscending (elements.map Value.body) = false then none
  else some (.constructed tag body elements)

/-- The primitive value with this content, if that follows the rules of its type. -/
def ofContent? (mode : Mode) (options : TextOptions) (tag : Tag) (body : Octets) : Option Value :=
  if tag.isUniversal = false then
    some (.generic tag body)
  else if tag.isConstructedType then
    none
  else if tag = .boolean then
    match body with
    | [octet] => if mode = .der ∧ octet ≠ 0 ∧ octet ≠ 0xff then none else some (.boolean octet)
    | _ => none
  else if tag = .objectId then
    if (ObjectId.mk body).isValid then some (.objectId ⟨body⟩) else none
  else if tag = .utcTime then
    (UtcTime.ofOctets? mode body).map (.utcTime body)
  else if tag = .null then
    if body = [] then some (.generic tag body) else none
  else if tag.isTextType then
    if (Text.mk tag body options).isValid then some (.text ⟨tag, body, options⟩) else none
  else
    some (.generic tag body)

/-- Reads the elements that make up content of definite length. None of them may be an end
marker. -/
def elements? (item : ItemScan (Option Value)) (content : Octets) : Option (List Value) :=
  if content = [] then
    some []
  else
    match _outcome : item.run content with
    | .ok (some value) rest => (elements? item rest).map (value :: ·)
    | _ => none
termination_by content.length
decreasing_by exact item.progress _ _ _ _outcome

/-- Reads elements up to the end marker, which it takes too. -/
def untilEnd (item : ItemScan (Option Value)) : Scan (List Value) := fun octets =>
  match _outcome : item.run octets with
  | .ok none rest => .ok [] rest
  | .ok (some value) rest =>
      match untilEnd item rest with
      | .ok values rest => .ok (value :: values) rest
      | .error error rest => .error error rest
  | .error error rest => .error error rest
termination_by octets => octets.length
decreasing_by exact item.progress _ _ _ _outcome

def content (mode : Mode) (options : TextOptions) (item : ItemScan (Option Value))
    (identifier : Identifier) : Length → Scan Value
  | .definite count => do
      let body ← Scan.octets count
      if identifier.constructed then
        if mayBeConstructed mode identifier.tag then
          Scan.accept ((elements? item body).bind (ofElements? mode identifier.tag body))
        else
          throw .invalidFormat
      else
        Scan.accept (ofContent? mode options identifier.tag body)
  | .indefinite =>
      if identifier.constructed ∧ mayBeConstructed mode identifier.tag then do
        let (elements, body) ← Scan.spanned (untilEnd item)
        Scan.accept (ofElements? mode identifier.tag body elements)
      else
        throw .invalidFormat

/-- Reads a value, or an end marker, which is none. An end marker is primitive and empty. -/
def valueOrEnd (mode : Mode) (options : TextOptions) (item : ItemScan (Option Value)) :
    Scan (Option Value) := do
  let identifier ← Identifier.scan
  let length ← Length.scan mode
  if identifier.tag = .endOfContent then
    if identifier.constructed = false ∧ length.isZero then return none
    else throw .invalidFormat
  else
    some <$> content mode options item identifier length

/-- Finds that a value is nested too deeply, once there is one. -/
def tooDeep : Scan (Option Value) := do
  let _ ← Identifier.scan
  throw .invalidFormat

theorem forward_untilEnd (item : ItemScan (Option Value)) : Scan.Forward (untilEnd item) := by
  intro octets
  fun_induction untilEnd item octets with
  | case1 octets rest outcome =>
      have forward := item.forward octets
      rwa [outcome] at forward
  | case2 octets value rest outcome values rest' later inductionHypothesis =>
      have forward := item.forward octets
      rw [outcome] at forward
      rw [later] at inductionHypothesis
      exact inductionHypothesis.trans forward
  | case3 octets value rest outcome error rest' later inductionHypothesis =>
      have forward := item.forward octets
      rw [outcome] at forward
      rw [later] at inductionHypothesis
      exact inductionHypothesis.trans forward
  | case4 octets error rest outcome =>
      have forward := item.forward octets
      rwa [outcome] at forward

theorem forward_content (mode : Mode) (options : TextOptions) (item : ItemScan (Option Value))
    (identifier : Identifier) (length : Length) :
    Scan.Forward (content mode options item identifier length) := by
  cases length with
  | definite count =>
      refine Scan.forward_bind (Scan.forward_octets count) fun body => ?_
      split
      · split
        · exact Scan.forward_accept _
        · exact Scan.forward_throw _
      · exact Scan.forward_accept _
  | indefinite =>
      simp only [content]
      split
      · exact Scan.forward_bind (Scan.forward_spanned (forward_untilEnd item))
          fun _ => Scan.forward_accept _
      · exact Scan.forward_throw _

theorem forward_afterIdentifier (mode : Mode) (options : TextOptions)
    (item : ItemScan (Option Value)) (identifier : Identifier) :
    Scan.Forward (do
      let length ← Length.scan mode
      if identifier.tag = .endOfContent then
        if identifier.constructed = false ∧ length.isZero then return none
        else throw .invalidFormat
      else
        some <$> content mode options item identifier length) := by
  refine Scan.forward_bind (Length.forward_scan mode) fun length => ?_
  split
  · split
    · exact Scan.forward_pure _
    · exact Scan.forward_throw _
  · exact Scan.forward_bind (forward_content mode options item identifier length)
      fun _ => Scan.forward_pure _

/-- The scan of a value or an end marker where so many levels of values may be read. -/
def itemScan (mode : Mode) (options : TextOptions) : Nat → ItemScan (Option Value)
  | 0 =>
      { run := tooDeep
        forward := Scan.forward_bind Identifier.forward_scan fun _ => Scan.forward_throw _
        progress := Scan.progress_bind Identifier.progress_scan fun _ => Scan.forward_throw _ }
  | levels + 1 =>
      { run := valueOrEnd mode options (itemScan mode options levels)
        forward := Scan.forward_bind Identifier.forward_scan
          (forward_afterIdentifier mode options _)
        progress := Scan.progress_bind Identifier.progress_scan
          (forward_afterIdentifier mode options _) }

/-- Takes a value, which is not an end marker, from the front of octets. -/
def scan (options : Options) : Scan Value := do
  let found ← (itemScan options.mode options.toTextOptions options.levels).run
  Scan.accept found

theorem forward_scan (options : Options) : Scan.Forward (scan options) :=
  Scan.forward_bind (itemScan _ _ _).forward fun _ => Scan.forward_accept _

end Asn1.Value
