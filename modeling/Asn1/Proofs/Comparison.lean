import Asn1.Proofs.Encoding.Reading
import Asn1.Proofs.Scan

/-!
# Decoders compared

What one decoder reads, another one reads too under a condition on what was found, and otherwise it
finds the format broken. A condition on items becomes one on all the items of a series.
-/

namespace Asn1

namespace Scan

variable {α β : Type} {enough later : Prop} {all between rest : Octets}

/-- A scan that succeeds under a condition, and otherwise finds the format broken. -/
def Limited (enough : Prop) (scan : Scan α) (all : Octets) (result : α) (rest : Octets) : Prop :=
  (enough → scan all = .ok result rest) ∧
    (¬ enough → ∃ left, scan all = .error .invalidFormat left)

theorem limited_of_ok {scan : Scan α} {result : α} (holds : enough)
    (scanned : scan all = .ok result rest) : Limited enough scan all result rest :=
  ⟨fun _ => scanned, fun fails => absurd holds fails⟩

theorem limited_of_error {scan : Scan α} {result : α} {left : Octets} (fails : ¬ enough)
    (failed : scan all = .error .invalidFormat left) : Limited enough scan all result rest :=
  ⟨fun holds => absurd holds fails, fun _ => ⟨left, failed⟩⟩

theorem Limited.congr {scan : Scan α} {result : α} (limited : Limited enough scan all result rest)
    (same : enough ↔ later) : Limited later scan all result rest := by
  rwa [← propext same]

theorem Limited.bind {scan : Scan α} {next : α → Scan β} {middle : α} {result : β}
    (first : Limited enough scan all middle between)
    (second : Limited later (next middle) between result rest) :
    Limited (enough ∧ later) (scan >>= next) all result rest := by
  by_cases holds : enough
  · have scanned := first.1 holds
    by_cases holdsLater : later
    · apply limited_of_ok ⟨holds, holdsLater⟩
      rw [bind_apply, scanned]
      exact second.1 holdsLater
    · obtain ⟨left, failed⟩ := second.2 holdsLater
      apply limited_of_error fun both => holdsLater both.2
      rw [bind_apply, scanned]
      exact failed
  · obtain ⟨left, failed⟩ := first.2 holds
    apply limited_of_error fun both => holds both.1
    rw [bind_apply, failed]

theorem Limited.bind_ok {scan : Scan α} {next : α → Scan β} {middle : α} {result : β}
    (first : Limited enough scan all middle between)
    (second : next middle between = .ok result rest) :
    Limited enough (scan >>= next) all result rest :=
  (first.bind (limited_of_ok trivial second)).congr (iff_of_eq (and_true _))

theorem Limited.after {scan : Scan α} {next : α → Scan β} {middle : α} {result : β}
    (first : scan all = .ok middle between)
    (second : Limited enough (next middle) between result rest) :
    Limited enough (scan >>= next) all result rest :=
  ((limited_of_ok trivial first).bind second).congr (iff_of_eq (true_and _))

theorem Limited.map {scan : Scan α} {result : α} (limited : Limited enough scan all result rest)
    (function : α → β) : Limited enough (function <$> scan) all (function result) rest := by
  rw [← bind_pure_comp]
  exact limited.bind_ok rfl

theorem Limited.spanned {scan : Scan α} {result : α}
    (limited : Limited enough scan all result rest) :
    Limited enough (spanned scan) all (result, all.take (all.length - rest.length)) rest := by
  by_cases holds : enough
  · exact limited_of_ok holds (spanned_eq_ok_iff.mpr ⟨limited.1 holds, rfl⟩)
  · obtain ⟨left, failed⟩ := limited.2 holds
    apply limited_of_error holds
    rw [Scan.spanned, failed]

end Scan

open Scan (Limited)

namespace Value

/-- Where one scan finds an item, another one finds the changed item if that item is allowed. -/
def Compares (allowed : Option Value → Prop) (change : Value → Value)
    (item other : Scan (Option Value)) : Prop :=
  ∀ all found rest, item all = .ok found rest →
    Limited (allowed found) other all (found.map change) rest

section Series

variable {allowed : Option Value → Prop} {change : Value → Value}
  {item other : ItemScan (Option Value)} {values : List Value}

theorem Compares.elements?_of_allowed (compares : Compares allowed change item.run other.run)
    {content : Octets} (found : elements? item content = some values)
    (each : ∀ value ∈ values, allowed (some value)) :
    elements? other content = some (values.map change) := by
  fun_induction elements? item content generalizing values with
  | case1 =>
      cases found
      rw [elements?]
      rfl
  | case2 content nonempty value rest outcome inductionHypothesis =>
      rw [Option.map_eq_some_iff] at found
      obtain ⟨others, othersFound, rfl⟩ := found
      rw [List.forall_mem_cons] at each
      have scanned := (compares _ _ _ outcome).1 each.1
      rw [Encoding.elements?_of_ok nonempty scanned, inductionHypothesis othersFound each.2]
      rfl
  | case3 => cases found

theorem Compares.elements?_of_not_allowed (compares : Compares allowed change item.run other.run)
    {content : Octets} (found : elements? item content = some values)
    (refused : ¬ ∀ value ∈ values, allowed (some value)) : elements? other content = none := by
  fun_induction elements? item content generalizing values with
  | case1 =>
      cases found
      exact absurd (List.forall_mem_nil _) refused
  | case2 content nonempty value rest outcome inductionHypothesis =>
      rw [Option.map_eq_some_iff] at found
      obtain ⟨others, othersFound, rfl⟩ := found
      by_cases first : allowed (some value)
      · have later : ¬ ∀ value ∈ others, allowed (some value) := by
          intro each
          exact refused (List.forall_mem_cons.mpr ⟨first, each⟩)
        rw [Encoding.elements?_of_ok nonempty ((compares _ _ _ outcome).1 first),
          inductionHypothesis othersFound later]
        rfl
      · obtain ⟨left, failed⟩ := (compares _ _ _ outcome).2 first
        exact Encoding.elements?_of_error nonempty failed
  | case3 => cases found

theorem Compares.limited_untilEnd (compares : Compares allowed change item.run other.run)
    {all rest : Octets} (found : untilEnd item all = .ok values rest) :
    Limited (allowed none ∧ ∀ value ∈ values, allowed (some value)) (untilEnd other) all
      (values.map change) rest := by
  fun_induction untilEnd item all generalizing values with
  | case1 all left outcome =>
      cases found
      rw [Encoding.untilEnd_eq]
      refine Limited.congr (Limited.bind_ok (compares _ _ _ outcome) ?_) ?_
      · rfl
      · simp
  | case2 all value between outcome others left later inductionHypothesis =>
      cases found
      rw [Encoding.untilEnd_eq, List.forall_mem_cons]
      refine (Limited.bind (compares _ _ _ outcome) ((inductionHypothesis later).map _)).congr ?_
      exact and_left_comm
  | case3 => cases found
  | case4 => cases found

end Series

end Value

end Asn1
