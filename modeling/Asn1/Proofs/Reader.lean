import Asn1.Reader

/-!
# Cursors

Where a cursor stands once some of the octets in front of it have been read.
-/

namespace Asn1.Reader

variable {reader : Reader} {used rest : Octets}

theorem hasUnconsumedData_iff : reader.hasUnconsumedData = true ↔ reader.rest ≠ [] := by
  rw [hasUnconsumedData, decide_eq_true_eq, rest, ne_eq, List.drop_eq_nil_iff]
  omega

theorem leaving_length_rest (reader : Reader) : reader.leaving reader.rest.length = reader := by
  obtain ⟨data, pos, within⟩ := reader
  simp only [leaving, length_rest, remaining, mk.injEq, true_and]
  omega

theorem length_add_length_of_rest_eq (split : reader.rest = used ++ rest) :
    reader.pos + (used.length + rest.length) = reader.data.length := by
  have total := length_rest reader
  have within := reader.pos_le
  rw [split, List.length_append, remaining] at total
  omega

theorem pos_leaving (split : reader.rest = used ++ rest) :
    (reader.leaving rest.length).pos = reader.pos + used.length := by
  have total := length_add_length_of_rest_eq split
  change reader.data.length - rest.length = reader.pos + used.length
  omega

theorem remaining_leaving (split : reader.rest = used ++ rest) :
    (reader.leaving rest.length).remaining = rest.length := by
  have total := length_add_length_of_rest_eq split
  rw [remaining, pos_leaving split]
  change reader.data.length - (reader.pos + used.length) = rest.length
  omega

theorem rest_leaving (split : reader.rest = used ++ rest) :
    (reader.leaving rest.length).rest = rest := by
  rw [Reader.rest, pos_leaving split]
  change reader.data.drop (reader.pos + used.length) = rest
  rw [← List.drop_drop, ← Reader.rest, split, List.drop_left]

theorem since_leaving (split : reader.rest = used ++ rest) :
    (reader.leaving rest.length).since reader.pos = used := by
  rw [since, pos_leaving split, Nat.min_eq_left (Nat.le_add_right _ _)]
  change (reader.data.take (reader.pos + used.length)).drop reader.pos = used
  rw [List.drop_take, ← Reader.rest, split, Nat.add_sub_cancel_left, List.take_left]

theorem hasUnconsumedData_leaving_iff (split : reader.rest = used ++ rest) :
    (reader.leaving rest.length).hasUnconsumedData = true ↔ rest ≠ [] := by
  rw [hasUnconsumedData_iff, rest_leaving split]

/-- If a scan uses up certain octets in front, the cursor stands behind them then. -/
theorem run_eq_ok_iff {α : Type} {scan : Scan α} {Uses : α → Octets → Prop}
    (scan_iff : ∀ {all rest result}, scan all = .ok result rest ↔
      ∃ used, Uses result used ∧ all = used ++ rest) {result : α} {pos : Nat} :
    (reader.run scan).1 = .ok result ∧ (reader.run scan).2.pos = pos ↔
      ∃ used, Uses result used ∧ used <+: reader.rest ∧ reader.pos + used.length = pos := by
  constructor
  · rintro ⟨succeeded, rfl⟩
    cases scanned : scan reader.rest with
    | error error rest =>
        rw [run, scanned] at succeeded
        cases succeeded
    | ok found rest =>
        rw [run, scanned] at succeeded ⊢
        cases succeeded
        obtain ⟨used, uses, split⟩ := scan_iff.mp scanned
        exact ⟨used, uses, ⟨rest, split.symm⟩, (pos_leaving split).symm⟩
  · rintro ⟨used, uses, ⟨rest, split⟩, rfl⟩
    rw [run, scan_iff.mpr ⟨used, uses, split.symm⟩]
    exact ⟨rfl, pos_leaving split.symm⟩

theorem run_snd {α : Type} (scan : Scan α) :
    (reader.run scan).2 = reader.leaving (Scan.left (scan reader.rest)).length := by
  cases scanned : scan reader.rest <;> simp [run, scanned, Scan.left]

/-- Where the second of two scans begins, the cursor stands behind what the first one has used. -/
theorem run_bind {α β : Type} {scan : Scan α} (forward : Scan.Forward scan) (next : α → Scan β) :
    reader.run (scan >>= next) = match reader.run scan with
      | (.ok result, after) => after.run (next result)
      | (.error error, after) => (.error error, after) := by
  simp only [run, Scan.bind_apply]
  cases scanned : scan reader.rest with
  | error error rest => rfl
  | ok result rest =>
      obtain ⟨used, split⟩ := forward reader.rest
      rw [scanned] at split
      have rest_eq : (reader.leaving rest.length).rest = rest := rest_leaving split.symm
      simp only [rest_eq]
      cases next result rest <;> rfl

theorem run_eq_error_iff {α : Type} {scan : Scan α} {error : DecodeError} :
    (reader.run scan).1 = .error error ↔ ∃ left, scan reader.rest = .error error left := by
  cases scanned : scan reader.rest with
  | ok result rest => simp [run, scanned]
  | error found rest => simp [run, scanned]

end Asn1.Reader
