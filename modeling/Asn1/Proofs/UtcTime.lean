import Asn1.UtcTime

/-!
# UTC times under both sets of rules

Distinguished rules read a time exactly if basic rules do, the seconds are there and the last octet
is a `Z`; both then read the same time.
-/

namespace Asn1.UtcTime

theorem digit?_isSome_of_pairs? {octets : Octets} {numbers : List Nat}
    (read : pairs? octets = some numbers) : ∀ octet ∈ octets, (digit? octet).isSome := by
  fun_induction pairs? octets generalizing numbers with
  | case1 => simp
  | case2 tens units rest inductionHypothesis =>
      simp only [Option.bind_eq_bind, Option.bind_eq_some_iff] at read
      obtain ⟨ten, tensRead, unit, unitsRead, others, othersRead, -⟩ := read
      intro octet membership
      rcases List.mem_cons.mp membership with rfl | membership
      · rw [tensRead]; rfl
      rcases List.mem_cons.mp membership with rfl | membership
      · rw [unitsRead]; rfl
      · exact inductionHypothesis othersRead octet membership
  | case3 => cases read

theorem toNat_eq_Z_iff {octet : UInt8} : octet.toNat = 'Z'.toNat ↔ octet = 0x5a := by
  rw [← UInt8.toNat_inj]
  rfl

/-- Under distinguished rules the zone is the literal `Z`. -/
theorem zone?_der_iff {octets : Octets} {offset? : Option Int} :
    zone? .der octets = some offset? ↔ octets = [0x5a] ∧ offset? = none := by
  cases octets with
  | nil => simp [zone?]
  | cons mark digits =>
      simp only [zone?, toNat_eq_Z_iff]
      by_cases literal : mark = 0x5a
      · by_cases alone : digits = []
        · simp [literal, alone, eq_comm]
        · simp [literal, alone]
      · simp [literal]

/-- A zone that ends in `Z` is nothing else, since after a sign there are digits only. -/
theorem eq_literal_of_zone? {octets : Octets} {offset? : Option Int}
    (read : zone? .ber octets = some offset?) (literal : octets.getLast? = some 0x5a) :
    octets = [0x5a] ∧ offset? = none := by
  cases octets with
  | nil => cases literal
  | cons mark digits =>
      simp only [zone?, toNat_eq_Z_iff] at read
      split at read
      · next isLiteral =>
          split at read
          · next alone =>
              cases read
              exact ⟨by rw [isLiteral, alone], rfl⟩
          · cases read
      · split at read
        · next hours minutes digitsRead =>
            have nonempty : digits ≠ [] := by
              rintro rfl
              cases digitsRead
            rw [List.getLast?_cons, List.getLast?_eq_some_getLast nonempty] at literal
            have lastDigit := digit?_isSome_of_pairs? digitsRead _ (List.getLast_mem nonempty)
            rw [show digits.getLast nonempty = 0x5a by simpa using literal] at lastDigit
            cases lastDigit
        · cases read

theorem fields?_der_iff {numbers : List Nat} {offset? : Option Int} {time : UtcTime} :
    fields? .der numbers offset? = some time ↔
      fields? .ber numbers offset? = some time ∧ time.second?.isSome := by
  match numbers with
  | [] | [_] | [_, _] | [_, _, _] | [_, _, _, _] | _ :: _ :: _ :: _ :: _ :: _ :: _ :: _ =>
      simp [fields?]
  | [year, month, day, hour, minute] =>
      simp only [fields?, reduceCtorEq, Option.some.injEq, false_iff, not_and]
      rintro rfl
      simp
  | [year, month, day, hour, minute, second] =>
      simp only [fields?, Option.some.injEq, iff_self_and]
      rintro rfl
      rfl

theorem getLast?_dropWhile {octets : Octets} (test : UInt8 → Bool)
    (nonempty : octets.dropWhile test ≠ []) :
    (octets.dropWhile test).getLast? = octets.getLast? := by
  calc (octets.dropWhile test).getLast?
      = (octets.takeWhile test ++ octets.dropWhile test).getLast? := by
        rw [List.getLast?_append, List.getLast?_eq_some_getLast nonempty, Option.some_or]
    _ = octets.getLast? := by rw [List.takeWhile_append_dropWhile]

/-- The time that distinguished rules read is that of basic rules, where the seconds are there and
a literal `Z` comes last. -/
theorem ofOctets?_der_iff {octets : Octets} {time : UtcTime} :
    ofOctets? .der octets = some time ↔
      ofOctets? .ber octets = some time ∧ time.second?.isSome ∧ octets.getLast? = some 0x5a := by
  simp only [ofOctets?, Option.bind_eq_bind, Option.bind_eq_some_iff,
    Option.ite_none_right_eq_some, Option.some.injEq]
  constructor
  · rintro ⟨numbers, digitsRead, offset?, zoneRead, time, fieldsRead, onCalendar, rfl⟩
    rw [zone?_der_iff] at zoneRead
    rw [fields?_der_iff] at fieldsRead
    have last : octets.getLast? = some 0x5a := by
      rw [← getLast?_dropWhile fun octet => !startsZone octet, zoneRead.1]
      · rfl
      · rw [zoneRead.1]
        exact List.cons_ne_nil _ _
    refine ⟨⟨numbers, digitsRead, offset?, ?_, time, fieldsRead.1, onCalendar, rfl⟩,
      fieldsRead.2, last⟩
    rw [zoneRead.1, zoneRead.2]
    rfl
  · rintro ⟨⟨numbers, digitsRead, offset?, zoneRead, time, fieldsRead, onCalendar, rfl⟩,
      seconds, last⟩
    have nonempty : octets.dropWhile (fun octet => !startsZone octet) ≠ [] := by
      intro empty
      rw [empty] at zoneRead
      cases zoneRead
    rw [← getLast?_dropWhile _ nonempty] at last
    exact ⟨numbers, digitsRead, offset?, zone?_der_iff.mpr (eq_literal_of_zone? zoneRead last),
      time, fields?_der_iff.mpr ⟨fieldsRead, seconds⟩, onCalendar, rfl⟩

end Asn1.UtcTime
