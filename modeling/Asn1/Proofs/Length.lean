import Asn1.Length
import Asn1.Proofs.Octets
import Asn1.Proofs.Scan
import Mathlib.Data.Nat.Bitwise

/-!
# The octets that announce a length

`Announces` lists the definite forms of basic rules. Distinguished rules only leave the shortest
one, which is that of `encode`. No number that is written in eight octets loses bits in a word.
-/

namespace Asn1.Length

theorem toNat_append {count : UInt64} {octet : UInt8} (fits : count.toNat < 256 ^ 7) :
    (append count octet).toNat = count.toNat * 256 + octet.toNat := by
  have low : octet.toNat < 2 ^ 8 := octet.toNat_lt
  have kept : (count <<< 8).toNat = count.toNat <<< 8 := by
    rw [UInt64.toNat_shiftLeft]
    apply Nat.mod_eq_of_lt
    simp only [UInt64.reduceToNat, Nat.reduceMod, Nat.shiftLeft_eq]
    omega
  rw [append, UInt64.toNat_or, kept, UInt8.toNat_toUInt64, ← Nat.shiftLeft_add_eq_or_of_lt low,
    Nat.shiftLeft_eq]

/-- Up to eight octets write a number of 64 bits, and it is read without loss. -/
theorem toNat_word {written : Octets} (few : written.length ≤ 8) :
    (word written).toNat = Octets.toNat written := by
  induction written using List.reverseRecOn with
  | nil => rfl
  | append_singleton written octet inductionHypothesis =>
      rw [List.length_append, List.length_singleton] at few
      have read := inductionHypothesis (by omega)
      have bound := Octets.toNat_lt written
      have widest : 256 ^ written.length ≤ 256 ^ 7 := Nat.pow_le_pow_right (by decide) (by omega)
      have appended : word (written ++ [octet]) = append (word written) octet := by
        rw [word, List.foldl_append]
        rfl
      rw [appended, toNat_append (by omega), read, Octets.toNat_concat]

theorem width_eq (count : UInt64) : width count = (Octets.ofNat count.toNat).length := by
  fun_induction width count with
  | case1 =>
      rw [Octets.ofNat]
      rfl
  | case2 count nonzero inductionHypothesis =>
      have positive : count.toNat ≠ 0 := mt (@UInt64.toNat_inj count 0).mp nonzero
      rw [inductionHypothesis, toNat_shiftRight_eight, Octets.ofNat.eq_def count.toNat,
        if_neg positive, List.length_append, List.length_singleton]

/-- The definite forms: short form below 128, and long form in one to eight octets after an octet
that counts them, where leading zeros are allowed. -/
inductive Announces : Octets → Nat → Prop
  | short (octet : UInt8) : octet < 0x80 → Announces [octet] octet.toNat
  | long (written : Octets) : written ≠ [] → written.length ≤ 8 →
      Announces (UInt8.ofNat (128 + written.length) :: written) (Octets.toNat written)

/-- A definite form than which none is shorter. -/
def Shortest (octets : Octets) (count : Nat) : Prop :=
  Announces octets count ∧ ∀ other, Announces other count → octets.length ≤ other.length

theorem Announces.lt {octets : Octets} {count : Nat} (announces : Announces octets count) :
    count < 2 ^ 64 := by
  cases announces with
  | short octet low =>
      have octetBound := octet.toNat_lt
      omega
  | long written nonempty few =>
      have bound := Octets.toNat_lt written
      have widest : 256 ^ written.length ≤ 256 ^ 8 := Nat.pow_le_pow_right (by decide) few
      omega

theorem Announces.ne_nil {octets : Octets} {count : Nat} (announces : Announces octets count) :
    octets ≠ [] := by
  cases announces <;> simp

theorem encode_of_lt {count : Nat} (low : count < 128) : encode count = [UInt8.ofNat count] :=
  if_pos low

theorem encode_of_le {count : Nat} (high : 128 ≤ count) :
    encode count = UInt8.ofNat (128 + (Octets.ofNat count).length) :: Octets.ofNat count :=
  if_neg (Nat.not_lt.mpr high)

theorem announces_encode {count : Nat} (bound : count < 2 ^ 64) :
    Announces (encode count) count := by
  by_cases low : count < 128
  · have form := Announces.short (UInt8.ofNat count)
      (by rw [UInt8.lt_iff_toNat_lt, UInt8.toNat_ofNat']; simp; omega)
    rw [UInt8.toNat_ofNat', Nat.mod_eq_of_lt (by omega)] at form
    rwa [encode_of_lt low]
  · have few : (Octets.ofNat count).length ≤ 8 := Octets.length_ofNat_le_of_lt_pow (by omega)
    have nonempty : Octets.ofNat count ≠ [] := by
      intro empty
      have zero := Octets.toNat_ofNat count
      rw [empty, Octets.toNat_nil] at zero
      omega
    have form := Announces.long (Octets.ofNat count) nonempty few
    rw [Octets.toNat_ofNat] at form
    rwa [encode_of_le (by omega)]

theorem Announces.length_encode_le {octets : Octets} {count : Nat}
    (announces : Announces octets count) : (encode count).length ≤ octets.length := by
  by_cases low : count < 128
  · rw [encode_of_lt low]
    cases announces <;> simp
  · rw [encode_of_le (by omega)]
    cases announces with
    | short octet small =>
        rw [UInt8.lt_iff_toNat_lt] at small
        exact absurd small low
    | long written nonempty few => simpa using Octets.length_ofNat_toNat_le written

theorem Announces.eq_encode {octets : Octets} {count : Nat} (announces : Announces octets count)
    (sameLength : octets.length = (encode count).length) : octets = encode count := by
  cases announces with
  | short octet small =>
      rw [UInt8.lt_iff_toNat_lt] at small
      rw [encode_of_lt small, UInt8.ofNat_toNat]
  | long written nonempty few =>
      by_cases low : Octets.toNat written < 128
      · rw [encode_of_lt low] at sameLength
        simp [nonempty] at sameLength
      · rw [encode_of_le (by omega)] at sameLength ⊢
        have minimal : (Octets.ofNat (Octets.toNat written)).length = written.length := by
          simpa using sameLength.symm
        rw [Octets.ofNat_toNat_of_length_eq written minimal]

theorem shortest_iff {octets : Octets} {count : Nat} :
    Shortest octets count ↔ count < 2 ^ 64 ∧ octets = encode count := by
  constructor
  · rintro ⟨announces, minimal⟩
    have notLonger := minimal (encode count) (announces_encode announces.lt)
    exact ⟨announces.lt,
      announces.eq_encode (Nat.le_antisymm notLonger announces.length_encode_le)⟩
  · rintro ⟨bound, rfl⟩
    exact ⟨announces_encode bound, fun other announces => announces.length_encode_le⟩

theorem shortest_encode {count : Nat} (bound : count < 2 ^ 64) : Shortest (encode count) count :=
  shortest_iff.mpr ⟨bound, rfl⟩

/-- The test of the long form finds out whether it is the shortest. -/
theorem isShortest_word_iff {written : Octets} (few : written.length ≤ 8) :
    isShortest (word written) written.length = true ↔
      UInt8.ofNat (128 + written.length) :: written = encode (Octets.toNat written) := by
  simp only [isShortest, Bool.and_eq_true, decide_eq_true_eq, width_eq, UInt64.le_iff_toNat_le,
    toNat_word few]
  change 128 ≤ _ ∧ _ ↔ _
  constructor
  · rintro ⟨high, minimal⟩
    rw [encode_of_le high, Octets.ofNat_toNat_of_length_eq written minimal]
  · intro same
    by_cases low : Octets.toNat written < 128
    · rw [encode_of_lt low, List.cons.injEq] at same
      obtain ⟨first, rfl⟩ := same
      exact absurd first (by decide)
    · rw [encode_of_le (by omega), List.cons.injEq] at same
      exact ⟨by omega, by rw [← same.2]⟩

/-- Taking apart what follows the first length octet. -/
theorem scan_cons (mode : Mode) (first : UInt8) (all : Octets) :
    scan mode (first :: all) =
      if first = 0xff then .error .invalidFormat all
      else if first < 0x80 then .ok (.definite first.toNat) all
      else if first = 0x80 then
        if mode = .der then .error .invalidFormat all else .ok .indefinite all
      else if widthLimit < first.toNat - 128 then .error .invalidFormat all
      else match Scan.octets (first.toNat - 128) all with
        | .ok written rest =>
            if mode = .der ∧ isShortest (word written) written.length = false then
              .error .invalidFormat rest
            else
              .ok (.definite (word written).toNat) rest
        | .error error rest => .error error rest := by
  simp only [scan, Scan.bind_apply, Scan.octet_cons]
  split
  · rfl
  split
  · rfl
  split
  · split <;> rfl
  split
  · rfl
  rw [Scan.bind_apply]
  cases Scan.octets (first.toNat - 128) all with
  | ok written rest => simp only; split <;> rfl
  | error error rest => rfl

theorem scan_eq_indefinite_iff {mode : Mode} {all rest : Octets} :
    scan mode all = .ok .indefinite rest ↔ mode = .ber ∧ all = 0x80 :: rest := by
  constructor
  · intro found
    cases all with
    | nil => cases found
    | cons first tail =>
        rw [scan_cons] at found
        split at found
        · cases found
        split at found
        · cases found
        split at found
        · next marker =>
            split at found
            · cases found
            · next notDer =>
                cases found
                exact ⟨by cases mode <;> simp_all, by rw [marker]⟩
        split at found
        · cases found
        split at found
        · split at found <;> cases found
        · cases found
  · rintro ⟨rfl, rfl⟩
    rfl

theorem announces_of_scan {mode : Mode} {all rest : Octets} {count : Nat}
    (found : scan mode all = .ok (.definite count) rest) :
    ∃ octets, Announces octets count ∧ (mode = .der → Shortest octets count) ∧
      all = octets ++ rest := by
  cases all with
  | nil => cases found
  | cons first tail =>
      rw [scan_cons] at found
      split at found
      · cases found
      split at found
      · next small =>
          cases found
          have announces := Announces.short first small
          rw [UInt8.lt_iff_toNat_lt] at small
          refine ⟨[first], announces, fun _ => shortest_iff.mpr ⟨announces.lt, ?_⟩, rfl⟩
          rw [encode_of_lt small, UInt8.ofNat_toNat]
      split at found
      · split at found <;> cases found
      split at found
      · cases found
      next notReserved notShort notIndefinite few =>
      split at found
      · next written left taken =>
          split at found
          · cases found
          · next accepted =>
              cases found
              obtain ⟨rfl, width⟩ := Scan.octets_eq_ok_iff.mp taken
              have firstBound := first.toNat_lt
              have high : ¬ first.toNat < 128 := by rwa [UInt8.lt_iff_toNat_lt] at notShort
              have marker : UInt8.ofNat (128 + written.length) = first := by
                rw [width, ← UInt8.toNat_inj, UInt8.toNat_ofNat']
                omega
              have nonempty : written ≠ [] := by
                rintro rfl
                exact notIndefinite marker.symm
              have few : written.length ≤ 8 := width ▸ Nat.not_lt.mp few
              have announces := Announces.long written nonempty few
              rw [marker] at announces
              rw [toNat_word few]
              refine ⟨first :: written, announces, fun der => ?_, rfl⟩
              have shortest : isShortest (word written) written.length = true := by
                simpa [der] using accepted
              rw [isShortest_word_iff few, marker] at shortest
              exact shortest_iff.mpr ⟨announces.lt, shortest⟩
      · cases found

theorem toNat_marker {width : Nat} (few : width ≤ 8) :
    (UInt8.ofNat (128 + width)).toNat = 128 + width := by
  rw [UInt8.toNat_ofNat']
  omega

theorem marker_ne_of_toNat_ne {width : Nat} {octet : UInt8} (few : width ≤ 8)
    (different : 128 + width ≠ octet.toNat) : UInt8.ofNat (128 + width) ≠ octet := by
  intro same
  rw [← same, toNat_marker few] at different
  exact different rfl

/-- The octets behind a first one that counts them are taken. -/
theorem scan_marker {width : Nat} (positive : 0 < width) (few : width ≤ 8) (mode : Mode)
    (all : Octets) :
    scan mode (UInt8.ofNat (128 + width) :: all) =
      match Scan.octets width all with
        | .ok written rest =>
            if mode = .der ∧ isShortest (word written) written.length = false then
              .error .invalidFormat rest
            else
              .ok (.definite (word written).toNat) rest
        | .error error rest => .error error rest := by
  have notReserved : UInt8.ofNat (128 + width) ≠ 0xff := by
    apply marker_ne_of_toNat_ne few
    change 128 + width ≠ 255
    omega
  have notShort : ¬ UInt8.ofNat (128 + width) < 0x80 := by
    rw [UInt8.lt_iff_toNat_lt, toNat_marker few]
    change ¬ 128 + width < 128
    omega
  have notIndefinite : UInt8.ofNat (128 + width) ≠ 0x80 := by
    apply marker_ne_of_toNat_ne few
    change 128 + width ≠ 128
    omega
  have withinLimit : ¬ widthLimit < 128 + width - 128 := by
    rw [widthLimit]
    omega
  rw [scan_cons, if_neg notReserved, if_neg notShort, if_neg notIndefinite, toNat_marker few,
    if_neg withinLimit, Nat.add_sub_cancel_left]

theorem scan_long {written : Octets} (nonempty : written ≠ []) (few : written.length ≤ 8)
    (mode : Mode) (rest : Octets) :
    scan mode (UInt8.ofNat (128 + written.length) :: (written ++ rest)) =
      if mode = .der ∧ isShortest (word written) written.length = false then
        .error .invalidFormat rest
      else
        .ok (.definite (Octets.toNat written)) rest := by
  rw [scan_marker (List.length_pos_iff.mpr nonempty) few, Scan.octets_append,
    ← toNat_word few]

theorem scan_of_announces {mode : Mode} {octets : Octets} {count : Nat}
    (announces : Announces octets count) (canonical : mode = .der → Shortest octets count)
    (rest : Octets) : scan mode (octets ++ rest) = .ok (.definite count) rest := by
  cases announces with
  | short octet small =>
      have notReserved : octet ≠ 0xff := by
        rintro rfl
        exact absurd small (by decide)
      simp [scan_cons, notReserved, small]
  | long written nonempty few =>
      rw [List.cons_append, scan_long nonempty few]
      apply if_neg
      intro refused
      have shortest := (isShortest_word_iff few).mpr (shortest_iff.mp (canonical refused.1)).2
      rw [shortest] at refused
      cases refused.2

/-- What is taken as a definite length: any form under basic rules, and only the shortest under
distinguished rules. -/
theorem scan_eq_definite_iff {mode : Mode} {all rest : Octets} {count : Nat} :
    scan mode all = .ok (.definite count) rest ↔
      ∃ octets, Announces octets count ∧ (mode = .der → Shortest octets count) ∧
        all = octets ++ rest := by
  constructor
  · exact announces_of_scan
  · rintro ⟨octets, announces, canonical, rfl⟩
    exact scan_of_announces announces canonical rest

theorem Announces.scan_ber {octets : Octets} {count : Nat}
    (announces : Announces octets count) (rest : Octets) :
    scan .ber (octets ++ rest) = .ok (.definite count) rest :=
  scan_of_announces announces (by nofun) rest

theorem Announces.unique {left right leftRest rightRest : Octets} {leftCount rightCount : Nat}
    (announces : Announces left leftCount) (announces' : Announces right rightCount)
    (same : left ++ leftRest = right ++ rightRest) :
    left = right ∧ leftCount = rightCount ∧ leftRest = rightRest := by
  have leftScan := announces.scan_ber leftRest
  have rightScan := announces'.scan_ber rightRest
  rw [same, rightScan] at leftScan
  cases leftScan
  exact ⟨List.append_cancel_right same, rfl, rfl⟩

theorem Announces.ne_indefinite {octets rest other : Octets} {count : Nat}
    (announces : Announces octets count) : octets ++ rest ≠ 0x80 :: other := by
  intro same
  have scanned := announces.scan_ber rest
  rw [same, scan_eq_indefinite_iff.mpr ⟨rfl, rfl⟩] at scanned
  cases scanned

end Asn1.Length
