import Asn1.Proofs.Json.Builder
import Asn1.Proofs.Listing.Lines
import Asn1.Proofs.Steps
import Asn1.Sink
import Asn1.Writer
import Mathlib.Data.List.TakeDrop

/-!
# Writers that give up

A writer that takes only so many octets has taken the first of them, in whatever parts they were
written, since nothing more is written after the first failure. A broken pipe is no failure.
-/

namespace Asn1

variable {Target Failure Kind : Type}

namespace Utf8

theorem ofString_append (front back : String) :
    ofString (front ++ back) = ofString front ++ ofString back := by
  rw [ofString, String.toList_append, encode_append]
  rfl

theorem ofString_join (pieces : List String) :
    ofString (String.join pieces) = pieces.flatMap ofString := by
  rw [ofString, String.toList_join, encode, List.flatMap_assoc]
  rfl

end Utf8

theorem Steps.ignoringBrokenPipe_on [DecidableEq Kind] (kind : Failure → Kind) (brokenPipe : Kind)
    (steps : Steps (StateM Target) Failure Unit) (target : Target) :
    (steps.ignoringBrokenPipe kind brokenPipe).on target =
      match steps.on target with
      | (.ok (), after) => (.ok (), after)
      | (.error failure, after) =>
          (if kind failure = brokenPipe then .ok () else .error failure, after) := by
  have ends : StateT.run (ExceptT.run steps) target = steps.on target := rfl
  rw [on, ignoringBrokenPipe, ExceptT.run_tryCatch, StateT.run_bind, ends]
  obtain ⟨result, after⟩ := steps.on target
  cases result with
  | ok => rfl
  | error failure =>
      change Steps.on (if kind failure = brokenPipe then pure () else throw failure) after =
        (if kind failure = brokenPipe then .ok () else .error failure, after)
      split <;> rfl

theorem Steps.Moves.ignoringBrokenPipe [DecidableEq Kind] {Seen : Type}
    {relation : Seen → Seen → Prop} {seen : Target → Seen}
    {steps : Steps (StateM Target) Failure Unit} (moves : steps.Moves relation seen)
    (kind : Failure → Kind) (brokenPipe : Kind) :
    (steps.ignoringBrokenPipe kind brokenPipe).Moves relation seen := by
  intro target
  have moved := moves target
  rw [Steps.ignoringBrokenPipe_on]
  generalize steps.on target = outcome at moved ⊢
  obtain ⟨failure | _, after⟩ := outcome
  · exact moved
  · exact moved

/-- What is known of a target that takes only so many octets. -/
structure Limits (Target Failure Kind : Type) where
  /-- What a target has taken. -/
  received : Target → Octets
  /-- How many octets it takes in all, if there is a limit. -/
  limit? : Option Nat
  kind : Failure → Kind
  /-- The kind of its failures. -/
  failure : Kind
  /-- Whether it fails when what was written has to be passed on. -/
  failsToFlush : Bool

namespace Limits

/-- How writing octets to a target ends. -/
inductive Takes (limits : Limits Target Failure Kind) (target : Target) (octets : Octets) :
    Except Failure Unit × Target → Prop
  | all {after} :
      (∀ limit ∈ limits.limit?, octets.length ≤ limit - (limits.received target).length) →
      limits.received after = limits.received target ++ octets →
      Takes limits target octets (.ok (), after)
  | few {limit failure after} :
      limits.limit? = some limit →
      limit - (limits.received target).length < octets.length →
      limits.kind failure = limits.failure →
      limits.received after =
        limits.received target ++ octets.take (limit - (limits.received target).length) →
      Takes limits target octets (.error failure, after)

/-- How passing on what was written to a target ends. -/
inductive Flushes (limits : Limits Target Failure Kind) (target : Target) :
    Except Failure Unit × Target → Prop
  | passedOn {after} :
      limits.failsToFlush = false →
      limits.received after = limits.received target →
      Flushes limits target (.ok (), after)
  | failed {failure after} :
      limits.failsToFlush = true →
      limits.kind failure = limits.failure →
      limits.received after = limits.received target →
      Flushes limits target (.error failure, after)

/-- However it is written, only that the octets are not all taken is a failure. -/
def Passes (limits : Limits Target Failure Kind) (octets : Octets)
    (steps : Steps (StateM Target) Failure Unit) : Prop :=
  ∀ target, limits.Takes target octets (steps.on target)

variable {limits : Limits Target Failure Kind} {target after : Target} {front back : Octets}

theorem Takes.append {outcome : Except Failure Unit × Target}
    (first : limits.Takes target front (.ok (), after)) (second : limits.Takes after back outcome) :
    limits.Takes target (front ++ back) outcome := by
  obtain ⟨frontFits, frontReceived⟩ := first
  cases second with
  | all backFits backReceived =>
      refine .all (fun limit isLimit => ?_) ?_
      · have frontFits := frontFits limit isLimit
        have backFits := backFits limit isLimit
        rw [frontReceived, List.length_append] at backFits
        rw [List.length_append]
        omega
      · rw [backReceived, frontReceived, List.append_assoc]
  | few isLimit beyond isKind backReceived =>
      have frontFits := frontFits _ isLimit
      rw [frontReceived, List.length_append] at beyond backReceived
      refine .few isLimit ?_ isKind ?_
      · rw [List.length_append]
        omega
      · rw [backReceived, List.append_assoc, List.take_append, List.take_of_length_le frontFits,
          Nat.sub_sub]

/-- What is not written after a failure would not have been taken. -/
theorem Takes.stopped {failure : Failure}
    (first : limits.Takes target front (.error failure, after)) (back : Octets) :
    limits.Takes target (front ++ back) (.error failure, after) := by
  obtain _ | ⟨isLimit, beyond, isKind, received⟩ := first
  refine .few isLimit ?_ isKind ?_
  · rw [List.length_append]
    omega
  · rw [received, List.take_append_of_le_length (Nat.le_of_lt beyond)]

theorem passes_pure : limits.Passes [] (pure ()) := by
  intro target
  rw [Steps.pure_on]
  exact .all (fun _ _ => Nat.zero_le _) (List.append_nil _).symm

theorem Passes.append {first second : Steps (StateM Target) Failure Unit}
    (isFirst : limits.Passes front first) (isSecond : limits.Passes back second) :
    limits.Passes (front ++ back) (do first; second) := by
  intro target
  have firstEnds := isFirst target
  rw [Steps.bind_on]
  generalize first.on target = outcome at firstEnds ⊢
  obtain ⟨result, after⟩ := outcome
  cases result with
  | ok => exact firstEnds.append (isSecond after)
  | error failure => exact firstEnds.stopped back

theorem passes_forM {Item : Type} {octets : Item → Octets}
    {steps : Item → Steps (StateM Target) Failure Unit}
    (each : ∀ item, limits.Passes (octets item) (steps item)) (items : List Item) :
    limits.Passes (items.flatMap octets) (forM items steps) := by
  induction items with
  | nil => exact passes_pure
  | cons item items inductionHypothesis => exact (each item).append inductionHypothesis

end Limits

namespace Value

def ending (value : Value) : String := value.remark ++ "\n"

theorem line_eq_head_append_ending (depth : Nat) (value : Value) :
    value.line depth = value.head depth ++ value.ending := by
  simp only [line, head, ending, String.append_assoc]

end Value

namespace Writer

open Value (outlines)

/-- What is written on a writer with these limits is taken up to them. -/
structure IsLimited (writer : Writer (StateM Target) Failure)
    (limits : Limits Target Failure Kind) : Prop where
  write (octets : Octets) : limits.Passes octets (writer.write octets)
  flush (target : Target) : limits.Flushes target (writer.flush.on target)

variable (writer : Writer (StateM Target) Failure)

/-- The parts in which the line of a value is written. -/
def lineParts (place : Value.Place) : List Octets :=
  writer.cut (place.value.head place.depth) ++ writer.cut place.value.ending

def parts : Subject → List Octets
  | .value .text value => (value.outline 0 0).flatMap writer.lineParts
  | .value .json value => writer.cut (Json.Builder.build value.members ++ "\n")
  | .text text => [Utf8.ofString text]

theorem print_remark (rendered : String) :
    (if rendered = "" then writer.print "\n" else writer.print (": " ++ rendered ++ "\n")) =
      writer.print ((if rendered = "" then "" else ": " ++ rendered) ++ "\n") := by
  split <;> rfl

theorem list_of_leaf {value : Value} (leaf : value.isConstructed = false) (depth : Nat) :
    writer.list depth value = (do writer.print (value.head depth); writer.print value.ending) := by
  cases value with
  | constructed => cases leaf
  | text string => rfl
  | _ => exact congrArg (writer.print _ >>= fun _ => ·) (writer.print_remark _)

theorem listAll_eq {values : List Value} {depth : Nat}
    (each : ∀ value ∈ values, ∀ start, writer.list depth value =
      forM ((value.outline depth start).flatMap writer.lineParts) writer.write)
    (start : Nat) (content : Octets) :
    writer.listAll depth values =
      forM ((outlines depth start content values).flatMap writer.lineParts) writer.write := by
  induction values generalizing start content with
  | nil => rfl
  | cons value values inductionHypothesis =>
      rw [List.forall_mem_cons] at each
      rw [listAll, outlines, List.flatMap_append, List.forM_append, ← each.1,
        ← inductionHypothesis each.2]

theorem list_eq (value : Value) (depth start : Nat) :
    writer.list depth value =
      forM ((value.outline depth start).flatMap writer.lineParts) writer.write := by
  induction value using Value.induction generalizing depth start with
  | leaf value leaf =>
      rw [writer.list_of_leaf leaf, Value.outline_of_leaf leaf, List.flatMap_singleton, lineParts,
        List.forM_append]
      rfl
  | constructed tag body elements inductionHypothesis =>
      rw [list, Value.outline, List.flatMap_cons, lineParts, List.forM_append, List.forM_append,
        bind_assoc, writer.listAll_eq fun element membership start =>
        inductionHypothesis element membership (depth + 1) start]
      rfl

/-- Whatever a writer does, the parts are written one after another up to the first failure. -/
theorem emit_eq (subject : Subject) :
    writer.emit subject = forM (writer.parts subject) writer.write := by
  cases subject with
  | value format value =>
      cases format with
      | text => exact writer.list_eq value 0 0
      | json => rfl
  | text text => exact bind_pure_unit.symm

section Moves

variable {writer} {Seen : Type} {relation : Seen → Seen → Prop} [IsPreorder Seen relation]
  {seen : Target → Seen} (writes : ∀ octets, (writer.write octets).Moves relation seen)

include writes

theorem moves_print (text : String) : (writer.print text).Moves relation seen :=
  Steps.moves_forM writes _

theorem moves_output [DecidableEq Kind] (flushes : writer.flush.Moves relation seen)
    (kind : Failure → Kind) (brokenPipe : Kind) (subject : Subject) :
    (writer.output kind brokenPipe subject).Moves relation seen := by
  have emits : (writer.emit subject).Moves relation seen := by
    rw [writer.emit_eq]
    exact Steps.moves_forM writes _
  exact (emits.bind fun _ => flushes).ignoringBrokenPipe kind brokenPipe

end Moves

theorem flatten_lineParts (place : Value.Place) :
    (writer.lineParts place).flatten = Utf8.ofString (place.value.line place.depth) := by
  rw [lineParts, List.flatten_append, writer.flatten_cut, writer.flatten_cut,
    ← Utf8.ofString_append, Value.line_eq_head_append_ending]

/-- The parts make up the pieces of text that show the subject. -/
theorem flatten_parts (subject : Subject) :
    (writer.parts subject).flatten = Utf8.ofString (String.join subject.pieces) := by
  rw [Utf8.ofString_join]
  cases subject with
  | value format value =>
      cases format with
      | text =>
          change ((value.outline 0 0).flatMap writer.lineParts).flatten =
            (value.lines 0).flatMap Utf8.ofString
          rw [value.lines_eq 0 0, ← List.flatMap_id, List.flatMap_assoc, List.flatMap_map]
          simp only [List.flatMap_id, flatten_lineParts]
      | json =>
          change (writer.cut (Json.Builder.build value.members ++ "\n")).flatten =
            [Json.document value.members, "\n"].flatMap Utf8.ofString
          rw [writer.flatten_cut, Json.Builder.build_eq, Utf8.ofString_append]
          rfl
  | text text => rfl

variable {writer} {limits : Limits Target Failure Kind}

theorem IsLimited.passes_print (limited : writer.IsLimited limits) (text : String) :
    limits.Passes (Utf8.ofString text) (writer.print text) := by
  rw [← writer.flatten_cut, ← List.flatMap_id]
  exact Limits.passes_forM limited.write _

theorem IsLimited.passes_emit (limited : writer.IsLimited limits) (subject : Subject) :
    limits.Passes (Utf8.ofString (String.join subject.pieces)) (writer.emit subject) := by
  rw [writer.emit_eq, ← writer.flatten_parts, ← List.flatMap_id]
  exact Limits.passes_forM limited.write _

end Writer

/-- What output that would be so many octets comes to. -/
structure Limits.Shows (limits : Limits Target Failure Kind) (brokenPipe : Kind) (full : Octets)
    (outcome : Except Failure Unit × Target) : Prop where
  /-- The target has received the first octets up to its limit, or all if there is none. -/
  received : limits.received outcome.2 =
    full.take (min (limits.limit?.getD full.length) full.length)
  fails_iff : (∃ failure, outcome.1 = .error failure) ↔ limits.failure ≠ brokenPipe ∧
    (limits.limit?.getD full.length < full.length ∨ limits.failsToFlush = true)
  kind_eq : ∀ failure, outcome.1 = .error failure → limits.kind failure = limits.failure

namespace Limits

variable {limits : Limits Target Failure Kind} {brokenPipe : Kind} {full : Octets} {after : Target}
  {failure : Failure}

theorem shows_ok (fits : full.length ≤ limits.limit?.getD full.length)
    (passedOn : limits.failsToFlush = false) (received : limits.received after = full) :
    limits.Shows brokenPipe full (.ok (), after) where
  received := by rw [received, Nat.min_eq_right fits, List.take_length]
  fails_iff := by simp [passedOn, Nat.not_lt.mpr fits]
  kind_eq failure isError := nomatch isError

theorem shows_failure [DecidableEq Kind] (isKind : limits.kind failure = limits.failure)
    (fails : limits.limit?.getD full.length < full.length ∨ limits.failsToFlush = true)
    (received : limits.received after =
      full.take (min (limits.limit?.getD full.length) full.length)) :
    limits.Shows brokenPipe full
      (if limits.kind failure = brokenPipe then .ok () else .error failure, after) where
  received := received
  fails_iff := by
    rw [isKind]
    by_cases isBrokenPipe : limits.failure = brokenPipe
    · simp [isBrokenPipe]
    · simp [isBrokenPipe, fails]
  kind_eq other isError := by
    split at isError
    · cases isError
    · cases isError
      exact isKind

/-- All is shown where there is no limit. -/
theorem Shows.all {outcome : Except Failure Unit × Target}
    (shows : limits.Shows brokenPipe full outcome) (isUnlimited : limits.limit? = none)
    (passesOn : limits.failsToFlush = false) :
    outcome.1 = .ok () ∧ limits.received outcome.2 = full := by
  constructor
  · cases ended : outcome.1 with
    | ok => rfl
    | error failure =>
        have fails := (shows.fails_iff.mp ⟨failure, ended⟩).2
        rw [isUnlimited, passesOn] at fails
        simp at fails
  · have received := shows.received
    rwa [isUnlimited, Option.getD_none, Nat.min_self, List.take_length] at received

end Limits

namespace Writer

variable {writer : Writer (StateM Target) Failure} {limits : Limits Target Failure Kind}
  {target : Target}

/-- How a writer with limits ends depends on what is shown, and not on how it is written. -/
theorem IsLimited.shows [DecidableEq Kind] (limited : writer.IsLimited limits)
    (nothing : limits.received target = []) (brokenPipe : Kind) (subject : Subject) :
    limits.Shows brokenPipe (Utf8.ofString (String.join subject.pieces))
      ((writer.output limits.kind brokenPipe subject).on target) := by
  have emitted := limited.passes_emit subject target
  rw [output, Steps.ignoringBrokenPipe_on, Steps.bind_on]
  generalize Utf8.ofString (String.join subject.pieces) = full at emitted ⊢
  generalize (writer.emit subject).on target = outcome at emitted ⊢
  cases emitted with
  | @all after fits received =>
      -- All of it is written, so that how passing it on ends decides.
      rw [nothing, List.nil_append] at received
      have fits : full.length ≤ limits.limit?.getD full.length := by
        cases given : limits.limit? with
        | none => exact Nat.le_refl _
        | some limit => exact (fits limit given).trans (Nat.sub_le _ _)
      have flushed := limited.flush after
      dsimp only
      generalize writer.flush.on after = outcome at flushed ⊢
      cases flushed with
      | passedOn passes same => exact Limits.shows_ok fits passes (same.trans received)
      | failed fails isKind same =>
          refine Limits.shows_failure isKind (.inr fails) ?_
          rw [same, received, Nat.min_eq_right fits, List.take_length]
  | few isLimit beyond isKind received =>
      -- Nothing is passed on, whether or not that would fail as well.
      rw [nothing, List.length_nil, Nat.sub_zero] at beyond
      rw [nothing, List.nil_append, List.length_nil, Nat.sub_zero] at received
      refine Limits.shows_failure isKind (.inl ?_) ?_
      · rwa [isLimit]
      · rw [received, isLimit, Option.getD_some, Nat.min_eq_left (Nat.le_of_lt beyond)]

end Writer

namespace Limits

/-- Where nothing else is seen, it is settled how writing ends. -/
theorem Takes.unique {limits : Limits Target Failure Kind} {target : Target} {octets : Octets}
    {outcome other : Except Failure Unit × Target}
    (seen : Function.Injective limits.received) (told : Function.Injective limits.kind)
    (ends : limits.Takes target octets outcome) (ends' : limits.Takes target octets other) :
    outcome = other := by
  cases ends with
  | all fits received =>
      cases ends' with
      | all _ received' => rw [seen (received.trans received'.symm)]
      | few isLimit beyond => exact absurd (fits _ isLimit) (Nat.not_le.mpr beyond)
  | few isLimit beyond isKind received =>
      cases ends' with
      | all fits => exact absurd (fits _ isLimit) (Nat.not_le.mpr beyond)
      | few isLimit' _ isKind' received' =>
          cases isLimit.symm.trans isLimit'
          rw [seen (received.trans received'.symm), told (isKind.trans isKind'.symm)]

end Limits

namespace Sink

/-- A sink as a writer whose targets are what was received. -/
def writer (sink : Sink) (cut : String → List Octets)
    (flatten_cut : ∀ text, (cut text).flatten = Utf8.ofString text) :
    Writer (StateM Octets) WriteError where
  write octets := ExceptT.mk fun received =>
    let outcome := { sink with received }.write octets
    (outcome.1, outcome.2.received)
  flush := ExceptT.mk fun received => ({ sink with received }.flush.1, received)
  cut := cut
  flatten_cut := flatten_cut

def limits (sink : Sink) : Limits Octets WriteError WriteError where
  received := id
  limit? := sink.limit?
  kind := id
  failure := sink.failure
  failsToFlush := sink.failsToFlush

variable (sink : Sink) {cut : String → List Octets}
  (flatten_cut : ∀ text, (cut text).flatten = Utf8.ofString text)

theorem takes_write (received octets : Octets) :
    sink.limits.Takes received octets (({ sink with received }.write octets).1,
      ({ sink with received }.write octets).2.received) := by
  cases given : sink.limit? with
  | none =>
      simp only [write]
      exact .all (fun limit isLimit => nomatch given.symm.trans isLimit) rfl
  | some limit =>
      simp only [write]
      split
      · next fits =>
          refine .all (fun other isLimit => ?_) rfl
          cases given.symm.trans isLimit
          exact fits
      · next beyond => exact .few given (Nat.lt_of_not_le beyond) rfl rfl

theorem flushes_flush (received : Octets) :
    sink.limits.Flushes received (sink.flush.1, received) := by
  cases given : sink.failsToFlush with
  | false =>
      rw [flush, given]
      exact Limits.Flushes.passedOn given rfl
  | true =>
      rw [flush, given]
      exact Limits.Flushes.failed given rfl rfl

theorem isLimited_writer : (sink.writer cut flatten_cut).IsLimited sink.limits where
  write octets received := sink.takes_write received octets
  flush received := sink.flushes_flush received

theorem write_eq (octets : Octets) :
    sink.write octets =
      let outcome := ((sink.writer cut flatten_cut).write octets).on sink.received
      (outcome.1, { sink with received := outcome.2 }) := by
  change sink.write octets =
    ((sink.write octets).1, { sink with received := (sink.write octets).2.received })
  cases given : sink.limit? with
  | none => simp only [write, given]
  | some limit =>
      simp only [write, given]
      split <;> rfl

theorem writeAll_eq (pieces : List String) :
    sink.writeAll pieces =
      let outcome := (forM (pieces.map Utf8.ofString) (sink.writer cut flatten_cut).write).on
        sink.received
      (outcome.1, { sink with received := outcome.2 }) := by
  induction pieces generalizing sink with
  | nil => rfl
  | cons piece pieces inductionHypothesis =>
      rw [writeAll, List.map_cons, List.forM_cons, Steps.bind_on,
        sink.write_eq flatten_cut (Utf8.ofString piece)]
      generalize ((sink.writer cut flatten_cut).write (Utf8.ofString piece)).on sink.received =
        outcome
      obtain ⟨result, received⟩ := outcome
      cases result with
      | error => rfl
      | ok => exact inductionHypothesis { sink with received }

/-- Sinks are writers, and what is put in a sink in pieces is what is shown on the writer. -/
theorem put_eq (subject : Subject) :
    sink.put subject.pieces =
      let outcome := ((sink.writer cut flatten_cut).output id .brokenPipe subject).on sink.received
      (outcome.1, { sink with received := outcome.2 }) := by
  have limited := sink.isLimited_writer flatten_cut
  have inPieces := Limits.passes_forM limited.write (subject.pieces.map Utf8.ofString) sink.received
  rw [List.flatMap_map, ← Utf8.ofString_join] at inPieces
  have same := Limits.Takes.unique Function.injective_id Function.injective_id inPieces
    (limited.passes_emit subject sink.received)
  -- The pieces are other writes than those of the listing, but as much is taken of them.
  rw [put, sink.writeAll_eq flatten_cut, same, Writer.output, Steps.ignoringBrokenPipe_on,
    Steps.bind_on]
  generalize ((sink.writer cut flatten_cut).emit subject).on sink.received = outcome
  obtain ⟨result, received⟩ := outcome
  cases result with
  | error failure => cases failure <;> rfl
  | ok =>
      obtain ⟨_, limit?, failure, failsToFlush⟩ := sink
      cases failsToFlush <;> cases failure <;> rfl

end Sink

namespace Writer

/-- A writer receives the first of the octets that one without limits receives, up to its limit.
That it does not receive them all or fails to pass them on is reported, unless it is a broken pipe.
Sinks are such writers. -/
theorem output_exact {Target' Failure' Kind' : Type} [DecidableEq Kind] [DecidableEq Kind']
    {endless : Writer (StateM Target') Failure'} {unlimited : Limits Target' Failure' Kind'}
    {writer : Writer (StateM Target) Failure} {limits : Limits Target Failure Kind}
    {start : Target'} {target : Target}
    (takesAll : endless.IsLimited unlimited) (isUnlimited : unlimited.limit? = none)
    (passesOn : unlimited.failsToFlush = false) (fresh' : unlimited.received start = [])
    (limited : writer.IsLimited limits) (fresh : limits.received target = [])
    (brokenPipe' : Kind') (brokenPipe : Kind) (subject : Subject) :
    let shown := (endless.output unlimited.kind brokenPipe' subject).on start
    let full := unlimited.received shown.2
    let outcome := (writer.output limits.kind brokenPipe subject).on target
    limits.Shows brokenPipe full outcome ∧
      shown.1 = .ok () ∧
      full = Utf8.ofString (String.join subject.pieces) ∧
      ∀ sink cut flatten_cut, Sink.put sink subject.pieces =
        let put := ((sink.writer cut flatten_cut).output id .brokenPipe subject).on sink.received
        (put.1, { sink with received := put.2 }) := by
  intro shown full outcome
  have shows := takesAll.shows fresh' brokenPipe' subject
  obtain ⟨succeeds, received⟩ := shows.all isUnlimited passesOn
  have full_eq : full = Utf8.ofString (String.join subject.pieces) := received
  refine ⟨?_, succeeds, full_eq, fun sink cut flatten_cut => sink.put_eq flatten_cut subject⟩
  rw [full_eq]
  exact limited.shows fresh brokenPipe subject

/-- A sink that takes twenty octets does not take what is nested in a sequence to its end. -/
theorem output_exact_sequence :
    let subject : Subject :=
      .value .text (.constructed (.ofUniversal 16) [0x05, 0x00] [.generic (.ofUniversal 5) []])
    let full : Octets := Utf8.ofString "Sequence [2]\n  Null [0]\n"
    let endless : Sink := {}
    let sink : Sink := { limit? := some 20 }
    (endless.put subject.pieces).2.received = full ∧
      (sink.put subject.pieces).2.received = full.take 20 ∧
      ∃ failure, (sink.put subject.pieces).1 = .error failure := by
  intro subject full endless sink
  have ⟨shows, _, isFull, puts⟩ := output_exact (endless.isLimited_writer flatten_whole) rfl rfl rfl
    (sink.isLimited_writer flatten_whole) rfl .brokenPipe .brokenPipe subject
  have full_eq : Utf8.ofString (String.join subject.pieces) = full := by decide +kernel
  have many : 20 < full.length := by decide +kernel
  rw [isFull, full_eq] at shows
  rw [puts endless _ flatten_whole, puts sink _ flatten_whole]
  refine ⟨isFull.trans full_eq, ?_, shows.fails_iff.mpr ⟨nofun, .inl many⟩⟩
  exact shows.received

end Writer

end Asn1
