import Asn1.Scan

/-!
# What a successful scan has read

For each way to build a scan, when exactly it succeeds, with which result and which octets left.
-/

namespace Asn1.Scan

variable {α β : Type}

@[simp]
theorem pure_apply (value : α) (all : Octets) : (pure value : Scan α) all = .ok value all := rfl

@[simp]
theorem throw_apply (error : DecodeError) (all : Octets) :
    (throw error : Scan α) all = .error error all := rfl

theorem octet_eq_ok_iff {all rest : Octets} {first : UInt8} :
    octet all = .ok first rest ↔ all = first :: rest := by
  cases all with
  | nil => simp
  | cons head tail => simp

theorem octets_of_length_lt {count : Nat} {all : Octets} (few : all.length < count) :
    octets count all = .error .outOfBounds all := by
  have different : (all.take count).length ≠ count := by
    rw [List.length_take]
    omega
  exact if_neg different

theorem accept_eq_ok_iff {found : Option α} {all rest : Octets} {value : α} :
    accept found all = .ok value rest ↔ found = some value ∧ all = rest := by
  cases found with
  | none => simp [accept]
  | some other => simp [accept]

theorem bind_eq_ok_iff {scan : Scan α} {next : α → Scan β} {all rest : Octets} {result : β} :
    (scan >>= next) all = .ok result rest ↔
      ∃ middle between, scan all = .ok middle between ∧ next middle between = .ok result rest := by
  rw [bind_apply]
  cases scanned : scan all with
  | ok middle between =>
      constructor
      · exact fun later => ⟨middle, between, rfl, later⟩
      · rintro ⟨_, _, same, later⟩
        cases same
        exact later
  | error error between => simp

theorem map_apply (scan : Scan α) (function : α → β) (all : Octets) :
    (function <$> scan) all = match scan all with
      | .ok value rest => .ok (function value) rest
      | .error error rest => .error error rest := by
  rw [← bind_pure_comp, bind_apply]
  rfl

theorem map_eq_ok_iff {scan : Scan α} {function : α → β} {all rest : Octets} {result : β} :
    (function <$> scan) all = .ok result rest ↔
      ∃ value, scan all = .ok value rest ∧ function value = result := by
  rw [map_apply]
  cases scanned : scan all with
  | ok value left =>
      constructor
      · intro same
        cases same
        exact ⟨value, rfl, rfl⟩
      · rintro ⟨_, same, rfl⟩
        cases same
        rfl
  | error error left => simp

theorem take_used {all rest : Octets} (used : Octets) (split : all = used ++ rest) :
    all.take (all.length - rest.length) = used := by
  subst split
  simp

theorem spanned_eq_ok_iff {scan : Scan α} {all rest span : Octets} {result : α} :
    spanned scan all = .ok (result, span) rest ↔
      scan all = .ok result rest ∧ all.take (all.length - rest.length) = span := by
  simp only [spanned]
  cases scanned : scan all with
  | ok value left =>
      constructor
      · intro same
        cases same
        exact ⟨rfl, rfl⟩
      · rintro ⟨same, rfl⟩
        cases same
        rfl
  | error error left => simp

end Asn1.Scan
