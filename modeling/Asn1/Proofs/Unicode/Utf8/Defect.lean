import Asn1.Proofs.Unicode.Utf8

/-!
# Octets that start with no character

Four octets decide which character stands first. If there is none, the octets are truncated exactly
if they are the start of an encoding, and malformed whatever follows otherwise.
-/

namespace Asn1.Utf8

variable {leading : UInt8} {rest : Octets}

theorem first_take (leading : UInt8) (rest : Octets) :
    first leading (rest.take 3) = first leading rest := by
  match rest with
  | [] => rfl
  | [_] => rfl
  | [_, _] => rfl
  | _ :: _ :: _ :: _ => rfl

theorem first_append_of_malformed {length : Nat}
    (malformed : first leading rest = .error (.malformed length)) (more : Octets) :
    first leading (rest ++ more) = .error (.malformed length) := by
  rw [first] at malformed ⊢
  by_cases ascii : leading.toNat < 0x80
  · simp [ascii] at malformed
  simp only [ascii, if_false] at malformed ⊢
  cases announced : lead? leading.toNat with
  | none => simpa [announced] using malformed
  | some lead =>
      simp only [announced] at malformed ⊢
      match rest with
      | [] => simp at malformed
      | [second] =>
          simp only [List.cons_append, List.nil_append] at malformed ⊢
          grind
      | [second, third] =>
          simp only [List.cons_append, List.nil_append] at malformed ⊢
          grind
      | second :: third :: fourth :: rest => exact malformed

theorem lead?_bounds {octet : Nat} {lead : Lead} (announced : lead? octet = some lead) :
    lead.low ≤ lead.high ∧ lead.low < 256 := by
  rw [lead?_eq] at announced
  grind

/-- What is truncated can be continued to a character. -/
theorem exists_first_append_of_truncated (truncated : first leading rest = .error .truncated) :
    ∃ more char, first leading (rest ++ more) = .ok char := by
  have continues : isContinuation 0x80 = true := rfl
  rw [first] at truncated
  split at truncated
  · cases truncated
  next notAscii =>
  split at truncated
  · cases truncated
  next lead announced =>
  split at truncated
  · obtain ⟨ordered, small⟩ := lead?_bounds announced
    have low : (UInt8.ofNat lead.low).toNat = lead.low := by
      rw [UInt8.toNat_ofNat', Nat.mod_eq_of_lt small]
    refine ⟨[UInt8.ofNat lead.low, 0x80, 0x80], ?_⟩
    simp only [first, notAscii, announced, List.nil_append, low, Nat.lt_irrefl,
      Nat.not_lt.mpr ordered, or_self, continues, Bool.true_eq_false, if_false]
    split
    · exact ⟨_, rfl⟩
    split
    · exact ⟨_, rfl⟩
    · exact ⟨_, rfl⟩
  next second rest =>
  split at truncated
  · cases truncated
  next within =>
  split at truncated
  · cases truncated
  next notTwo =>
  split at truncated
  · refine ⟨[0x80, 0x80], ?_⟩
    simp only [first, notAscii, announced, List.cons_append, List.nil_append, within, notTwo,
      continues, Bool.true_eq_false, if_false]
    split
    · exact ⟨_, rfl⟩
    · exact ⟨_, rfl⟩
  next third rest =>
  split at truncated
  · cases truncated
  next thirdContinues =>
  split at truncated
  · cases truncated
  next notThree =>
  split at truncated
  · refine ⟨[0x80], ?_⟩
    simp only [first, notAscii, announced, List.cons_append, List.nil_append, within, notTwo,
      thirdContinues, notThree, continues, Bool.true_eq_false, if_false]
    exact ⟨_, rfl⟩
  · split at truncated
    · cases truncated
    · cases truncated

/-- Octets are truncated exactly if they are a proper prefix of the encoding of a character. -/
theorem first_eq_truncated_iff :
    first leading rest = .error .truncated ↔
      ∃ char, leading :: rest <+: String.utf8EncodeChar char ∧
        leading :: rest ≠ String.utf8EncodeChar char := by
  constructor
  · intro truncated
    have unread : ∀ char, ¬ String.utf8EncodeChar char <+: leading :: rest := by
      intro char stands
      rw [first_eq_ok_iff.mpr stands] at truncated
      cases truncated
    obtain ⟨more, char, found⟩ := exists_first_append_of_truncated truncated
    have encoded := first_eq_ok_iff.mp found
    refine ⟨char, ?_, ?_⟩
    · have front : leading :: rest <+: leading :: (rest ++ more) := List.prefix_append _ more
      exact (List.prefix_or_prefix_of_prefix front encoded).resolve_right (unread char)
    · intro same
      exact unread char (same ▸ List.prefix_refl _)
  · rintro ⟨char, ⟨more, whole⟩, proper⟩
    have found : first leading (rest ++ more) = .ok char := by
      apply first_eq_ok_iff.mpr
      rw [← whole]
      exact List.prefix_refl _
    cases answer : first leading rest with
    | ok other =>
        -- Both characters are read from the whole, so that nothing of it can be missing.
        have stands := first_eq_ok_iff.mp answer
        have again : first leading (rest ++ more) = .ok other :=
          first_eq_ok_iff.mpr (stands.trans (List.prefix_append _ more))
        rw [found, Except.ok.injEq] at again
        subst again
        exact absurd (List.IsPrefix.eq_of_length_le ⟨more, whole⟩ stands.length_le) proper
    | error defect =>
        cases defect with
        | truncated => rfl
        | malformed length =>
            rw [first_append_of_malformed answer more] at found
            cases found

end Asn1.Utf8
