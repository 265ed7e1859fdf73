import Asn1.Octets
import Asn1.DecodeError

/-!
Reading from the front of octets. A scan answers with a result and the octets it has left, also
when it fails. All scans go forward: what they leave is a suffix of what they were given.
-/

namespace Asn1

/-- Takes octets from the front. -/
abbrev Scan (α : Type) := EStateM DecodeError Octets α

namespace Scan

variable {α β : Type}

/-- The octets left after a scan, whether it succeeded or not. -/
def left : EStateM.Result DecodeError Octets α → Octets
  | .ok _ rest => rest
  | .error _ rest => rest

/-- What is left is always a suffix of what was given. -/
def Forward (scan : Scan α) : Prop :=
  ∀ octets, left (scan octets) <:+ octets

def Progress (scan : Scan α) : Prop :=
  ∀ octets result rest, scan octets = .ok result rest → rest.length < octets.length

def octet : Scan UInt8
  | [] => .error .outOfBounds []
  | first :: rest => .ok first rest

/-- Takes `count` octets, or leaves all of them if there are fewer. -/
def octets (count : Nat) : Scan Octets := fun all =>
  let taken := all.take count
  if taken.length = count then .ok taken (all.drop count) else .error .outOfBounds all

/-- Accepts a value that is there and otherwise finds the format broken. -/
def accept : Option α → Scan α
  | some value => pure value
  | none => throw .invalidFormat

/-- Also answers with the octets that a scan has used up. -/
def spanned (scan : Scan α) : Scan (α × Octets) := fun all =>
  match scan all with
  | .ok result rest => .ok (result, all.take (all.length - rest.length)) rest
  | .error error rest => .error error rest

@[simp]
theorem octet_cons (first : UInt8) (rest : Octets) : octet (first :: rest) = .ok first rest := rfl

@[simp]
theorem octet_nil : octet [] = .error .outOfBounds [] := rfl

@[simp]
theorem octets_append (taken rest : Octets) :
    octets taken.length (taken ++ rest) = .ok taken rest := by
  simp [octets]

theorem octets_eq_ok_iff {count : Nat} {all taken rest : Octets} :
    octets count all = .ok taken rest ↔ all = taken ++ rest ∧ taken.length = count := by
  constructor
  · intro found
    simp only [octets] at found
    split at found
    next enough =>
      cases found
      exact ⟨(List.take_append_drop count all).symm, enough⟩
    next => cases found
  · rintro ⟨rfl, rfl⟩
    exact octets_append taken rest

theorem bind_apply (scan : Scan α) (next : α → Scan β) (all : Octets) :
    (scan >>= next) all = match scan all with
      | .ok result rest => next result rest
      | .error error rest => .error error rest := by
  change EStateM.bind scan next all = _
  unfold EStateM.bind
  split <;> simp_all

theorem forward_pure (value : α) : Forward (pure value : Scan α) :=
  fun octets => List.suffix_refl octets

theorem forward_throw (error : DecodeError) : Forward (throw error : Scan α) :=
  fun octets => List.suffix_refl octets

theorem forward_accept (value : Option α) : Forward (accept value) := by
  cases value
  · exact forward_throw .invalidFormat
  · exact forward_pure _

theorem forward_octet : Forward octet := by
  intro all
  cases all with
  | nil => exact List.suffix_refl []
  | cons first rest => exact List.suffix_cons first rest

theorem forward_octets (count : Nat) : Forward (octets count) := by
  intro all
  simp only [octets]
  split
  · exact List.drop_suffix count all
  · exact List.suffix_refl all

theorem forward_bind {scan : Scan α} {next : α → Scan β}
    (first : Forward scan) (later : ∀ result, Forward (next result)) :
    Forward (scan >>= next) := by
  intro all
  have before := first all
  rw [bind_apply]
  cases found : scan all with
  | ok result rest =>
      rw [found] at before
      exact (later result rest).trans before
  | error error rest =>
      rw [found] at before
      exact before

theorem forward_spanned {scan : Scan α} (inner : Forward scan) : Forward (spanned scan) := by
  intro all
  have before := inner all
  simp only [spanned]
  cases found : scan all <;> rw [found] at before <;> exact before

theorem length_le_of_forward {scan : Scan α} (forward : Forward scan)
    {all rest : Octets} {result : α} (found : scan all = .ok result rest) :
    rest.length ≤ all.length := by
  have suffix := forward all
  rw [found] at suffix
  exact suffix.length_le

theorem progress_octet : Progress octet := by
  intro all result rest found
  cases all with
  | nil => cases found
  | cons first others =>
      cases found
      exact Nat.lt_succ_self _

theorem progress_bind {scan : Scan α} {next : α → Scan β}
    (first : Progress scan) (later : ∀ result, Forward (next result)) :
    Progress (scan >>= next) := by
  intro all result rest found
  rw [bind_apply] at found
  cases scanned : scan all with
  | ok middle between =>
      rw [scanned] at found
      have shorter := first all middle between scanned
      have notLonger := length_le_of_forward (later middle) found
      omega
  | error error between =>
      rw [scanned] at found
      cases found

end Scan

end Asn1
