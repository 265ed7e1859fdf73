import Asn1.Proofs.Length
import Asn1.Proofs.Reader

/-!
# Taking length octets from a cursor

Distinguished rules accept one spelling of each number of 64 bits. Basic rules also accept longer
ones and the indefinite form. Octets are only lacking where the first one asks for more than there
are, or where there is none.
-/

namespace Asn1.Length

variable {mode : Mode} {all rest octets : Octets} {length : Length}

/-- The spellings of a length that a set of rules accepts. -/
inductive Accepts : Mode → Length → Octets → Prop
  | definite {mode count octets} : Announces octets count → (mode = .der → Shortest octets count) →
      Accepts mode (.definite count) octets
  | indefinite : Accepts .ber .indefinite [0x80]

/-- Octets that end before the length does: there is none, or the first one announces some, eight at
most, and fewer than those follow. -/
inductive Incomplete : Octets → Prop
  | nil : Incomplete []
  | long {width : Nat} {written : Octets} : width ≤ 8 → written.length < width →
      Incomplete (UInt8.ofNat (0x80 + width) :: written)

theorem Accepts.ne_nil (accepts : Accepts mode length octets) : octets ≠ [] := by
  cases accepts with
  | definite announces => exact announces.ne_nil
  | indefinite => exact List.cons_ne_nil _ _

theorem Accepts.mode_eq (accepts : Accepts mode .indefinite octets) : mode = .ber := by
  cases accepts
  rfl

theorem scan_eq_ok_iff :
    scan mode all = .ok length rest ↔ ∃ used, Accepts mode length used ∧ all = used ++ rest := by
  cases length with
  | definite count =>
      rw [scan_eq_definite_iff]
      constructor
      · rintro ⟨octets, announces, shortest, rfl⟩
        exact ⟨octets, .definite announces shortest, rfl⟩
      · rintro ⟨_, ⟨announces, shortest⟩, rfl⟩
        exact ⟨_, announces, shortest, rfl⟩
  | indefinite =>
      rw [scan_eq_indefinite_iff]
      constructor
      · rintro ⟨rfl, rfl⟩
        exact ⟨[0x80], .indefinite, rfl⟩
      · rintro ⟨_, ⟨⟩, rfl⟩
        exact ⟨rfl, rfl⟩

theorem accepts_der_iff :
    Accepts .der length octets ↔
      ∃ count < 2 ^ 64, length = .definite count ∧ octets = encode count := by
  constructor
  · rintro ⟨announces, shortest⟩
    obtain ⟨bound, rfl⟩ := shortest_iff.mp (shortest rfl)
    exact ⟨_, bound, rfl, rfl⟩
  · rintro ⟨count, bound, rfl, rfl⟩
    exact .definite (announces_encode bound) fun _ => shortest_encode bound

theorem accepts_ber_iff :
    Accepts .ber length octets ↔
      (length = .indefinite ∧ octets = [0x80]) ∨
        ∃ count, length = .definite count ∧ Announces octets count := by
  constructor
  · rintro (⟨announces⟩ | _)
    · exact .inr ⟨_, rfl, announces⟩
    · exact .inl ⟨rfl, rfl⟩
  · rintro (⟨rfl, rfl⟩ | ⟨count, rfl, announces⟩)
    · exact .indefinite
    · exact .definite announces nofun

theorem Accepts.ber (accepts : Accepts mode length octets) : Accepts .ber length octets := by
  cases accepts with
  | definite announces => exact .definite announces nofun
  | indefinite => exact .indefinite

theorem scan_of_incomplete (incomplete : Incomplete all) (mode : Mode) :
    ∃ left, scan mode all = .error .outOfBounds left := by
  cases incomplete with
  | nil => exact ⟨[], rfl⟩
  | @long width written few lacking =>
      rw [scan_marker (Nat.zero_lt_of_lt lacking) few, Scan.octets_of_length_lt lacking]
      exact ⟨written, rfl⟩

theorem scan_of_not_incomplete (complete : ¬ Incomplete all) (mode : Mode) :
    (∃ length rest, scan mode all = .ok length rest) ∨
      ∃ left, scan mode all = .error .invalidFormat left := by
  cases all with
  | nil => exact absurd .nil complete
  | cons first tail =>
      rw [scan_cons]
      split
      · exact .inr ⟨tail, rfl⟩
      split
      · exact .inl ⟨_, tail, rfl⟩
      split
      · split
        · exact .inr ⟨tail, rfl⟩
        · exact .inl ⟨_, tail, rfl⟩
      split
      · exact .inr ⟨tail, rfl⟩
      next notReserved notShort notIndefinite few =>
      have high : ¬ first.toNat < 128 := by rwa [UInt8.lt_iff_toNat_lt] at notShort
      have enough : first.toNat - 128 ≤ tail.length := by
        by_contra lacking
        have marker : 128 + (first.toNat - 128) = first.toNat := by omega
        have few : first.toNat - 128 ≤ 8 := Nat.not_lt.mp few
        have incomplete := Incomplete.long few (Nat.not_le.mp lacking)
        rw [marker, UInt8.ofNat_toNat] at incomplete
        exact complete incomplete
      have split : tail = tail.take (first.toNat - 128) ++ tail.drop (first.toNat - 128) :=
        (List.take_append_drop _ tail).symm
      rw [Scan.octets_eq_ok_iff.mpr ⟨split, List.length_take_of_le enough⟩]
      dsimp only
      split
      · exact .inr ⟨_, rfl⟩
      · exact .inl ⟨_, _, rfl⟩

theorem scan_eq_outOfBounds_iff :
    (∃ left, scan mode all = .error .outOfBounds left) ↔ Incomplete all := by
  constructor
  · rintro ⟨left, failed⟩
    by_contra complete
    rcases scan_of_not_incomplete complete mode with ⟨length, rest, scanned⟩ | ⟨rest, scanned⟩
    · cases failed.symm.trans scanned
    · cases failed.symm.trans scanned
  · exact fun incomplete => scan_of_incomplete incomplete mode

theorem run_scan_eq_ok_iff {reader : Reader} {pos : Nat} :
    (reader.run (scan mode)).1 = .ok length ∧ (reader.run (scan mode)).2.pos = pos ↔
      ∃ used, Accepts mode length used ∧ used <+: reader.rest ∧ reader.pos + used.length = pos :=
  Reader.run_eq_ok_iff scan_eq_ok_iff

theorem run_scan_der_eq_ok_iff {reader : Reader} {pos : Nat} :
    (reader.run (scan .der)).1 = .ok length ∧ (reader.run (scan .der)).2.pos = pos ↔
      ∃ count < 2 ^ 64, length = .definite count ∧ encode count <+: reader.rest ∧
        reader.pos + (encode count).length = pos := by
  simp only [run_scan_eq_ok_iff, accepts_der_iff]
  constructor
  · rintro ⟨_, ⟨count, bound, rfl, rfl⟩, starts, moved⟩
    exact ⟨count, bound, rfl, starts, moved⟩
  · rintro ⟨count, bound, rfl, starts, moved⟩
    exact ⟨_, ⟨count, bound, rfl, rfl⟩, starts, moved⟩

theorem run_scan_ber_eq_ok_iff {reader : Reader} {pos : Nat} :
    (reader.run (scan .ber)).1 = .ok length ∧ (reader.run (scan .ber)).2.pos = pos ↔
      (length = .indefinite ∧ [0x80] <+: reader.rest ∧ reader.pos + 1 = pos) ∨
        ∃ octets count, Announces octets count ∧ length = .definite count ∧
          octets <+: reader.rest ∧ reader.pos + octets.length = pos := by
  simp only [run_scan_eq_ok_iff, accepts_ber_iff]
  constructor
  · rintro ⟨octets, ⟨rfl, rfl⟩ | ⟨count, rfl, announces⟩, starts, moved⟩
    · exact .inl ⟨rfl, starts, moved⟩
    · exact .inr ⟨octets, count, announces, rfl, starts, moved⟩
  · rintro (⟨rfl, starts, moved⟩ | ⟨octets, count, announces, rfl, starts, moved⟩)
    · exact ⟨[0x80], .inl ⟨rfl, rfl⟩, starts, moved⟩
    · exact ⟨octets, .inr ⟨count, rfl, announces⟩, starts, moved⟩

/-- There is one way to write a number if distinguished rules are to accept it. -/
theorem existsUnique_run_scan_der {count : Nat} (bound : count < 2 ^ 64) :
    ∃! octets : Octets,
      ((Reader.ofOctets octets).run (scan .der)).1 = .ok (.definite count) ∧
        ((Reader.ofOctets octets).run (scan .der)).2.pos = octets.length := by
  refine ⟨encode count, run_scan_der_eq_ok_iff.mpr ?_, fun octets taken => ?_⟩
  · exact ⟨count, bound, rfl, List.prefix_refl _, Nat.zero_add _⟩
  · obtain ⟨other, -, same, starts, covers⟩ := run_scan_der_eq_ok_iff.mp taken
    cases same
    exact (starts.eq_of_length ((Nat.zero_add _).symm.trans covers)).symm

theorem run_scan_cases (reader : Reader) (mode : Mode) :
    (∃ length, (reader.run (scan mode)).1 = .ok length) ∨
      (reader.run (scan mode)).1 = .error .outOfBounds ∨
      (reader.run (scan mode)).1 = .error .invalidFormat := by
  by_cases incomplete : Incomplete reader.rest
  · exact .inr (.inl (Reader.run_eq_error_iff.mpr (scan_of_incomplete incomplete mode)))
  · rcases scan_of_not_incomplete incomplete mode with ⟨length, rest, scanned⟩ | failed
    · rw [Reader.run, scanned]
      exact .inl ⟨length, rfl⟩
    · exact .inr (.inr (Reader.run_eq_error_iff.mpr failed))

/-- What is taken at a cursor. Distinguished rules accept the shortest form of each number of 64
bits and nothing else, so that each number has one spelling. Basic rules accept the same with the
same result, and also the indefinite form and all long forms in one to eight octets. Taking a length
fails for lack of octets exactly if they end before the length does. -/
theorem run_scan_accepts (reader : Reader) :
    (∀ length pos,
      (reader.run (scan .der)).1 = .ok length ∧ (reader.run (scan .der)).2.pos = pos ↔
        ∃ count < 2 ^ 64, length = .definite count ∧ encode count <+: reader.rest ∧
          reader.pos + (encode count).length = pos) ∧
    (∀ count < 2 ^ 64, Shortest (encode count) count ∧
      ∃! octets : Octets,
        ((Reader.ofOctets octets).run (scan .der)).1 = .ok (.definite count) ∧
          ((Reader.ofOctets octets).run (scan .der)).2.pos = octets.length) ∧
    (∀ length pos,
      (reader.run (scan .ber)).1 = .ok length ∧ (reader.run (scan .ber)).2.pos = pos ↔
        (length = .indefinite ∧ [0x80] <+: reader.rest ∧ reader.pos + 1 = pos) ∨
        ∃ octets count, Announces octets count ∧ length = .definite count ∧
          octets <+: reader.rest ∧ reader.pos + octets.length = pos) ∧
    (∀ length, (reader.run (scan .der)).1 = .ok length →
      (reader.run (scan .ber)).1 = .ok length ∧
        (reader.run (scan .ber)).2.pos = (reader.run (scan .der)).2.pos) ∧
    ∀ mode,
      ((reader.run (scan mode)).1 = .error .outOfBounds ↔ Incomplete reader.rest) ∧
      ((∃ length, (reader.run (scan mode)).1 = .ok length) ∨
        (reader.run (scan mode)).1 = .error .outOfBounds ∨
        (reader.run (scan mode)).1 = .error .invalidFormat) := by
  refine ⟨fun _ _ => run_scan_der_eq_ok_iff,
    fun count bound => ⟨shortest_encode bound, existsUnique_run_scan_der bound⟩,
    fun _ _ => run_scan_ber_eq_ok_iff, fun length succeeded => ?_, fun mode => ⟨?_, ?_⟩⟩
  · obtain ⟨used, accepts, starts, moved⟩ := run_scan_eq_ok_iff.mp ⟨succeeded, rfl⟩
    exact run_scan_eq_ok_iff.mpr ⟨used, accepts.ber, starts, moved⟩
  · rw [Reader.run_eq_error_iff, scan_eq_outOfBounds_iff]
  · exact run_scan_cases reader mode

/-- A number that needs two octets is taken in any mode, and octets are lacking without the last of
them. -/
theorem run_scan_two_octets :
    ((Reader.ofOctets [0x82, 0x01, 0x00, 0x2a]).run (scan .der)).1 = .ok (.definite 256) ∧
      ((Reader.ofOctets [0x82, 0x01, 0x00, 0x2a]).run (scan .ber)).1 = .ok (.definite 256) ∧
      ((Reader.ofOctets [0x82, 0x01, 0x00, 0x2a]).run (scan .ber)).2.pos = 3 ∧
      Shortest [0x82, 0x01, 0x00] 256 ∧
      ((Reader.ofOctets [0x82, 0x01]).run (scan .der)).1 = .error .outOfBounds := by
  obtain ⟨der, spelling, -, ber, -⟩ := run_scan_accepts (.ofOctets [0x82, 0x01, 0x00, 0x2a])
  obtain ⟨-, -, -, -, failures⟩ := run_scan_accepts (.ofOctets [0x82, 0x01])
  have written : encode 256 = [0x82, 0x01, 0x00] := by
    simp [encode, Octets.ofNat]
  have taken := (der (.definite 256) 3).mpr ⟨256, by decide, rfl, by rw [written]; decide, by
    rw [written]; rfl⟩
  obtain ⟨sameLength, samePlace⟩ := ber _ taken.1
  have lacking : Incomplete [0x82, 0x01] := @Incomplete.long 2 [0x01] (by decide) (by decide)
  refine ⟨taken.1, sameLength, samePlace.trans taken.2, ?_, (failures .der).1.mpr lacking⟩
  rw [← written]
  exact (spelling 256 (by decide)).1

end Asn1.Length
