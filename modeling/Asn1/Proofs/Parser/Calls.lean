import Asn1.Proofs.Reader
import Asn1.Proofs.Stability

/-!
# Using a parser again and again

`Outcome` lists all that one call can lead to. A run of calls takes encodings one after another
from the start of the data, until a call finds that none starts where the parser stands. After
that the parser does not change anymore.
-/

namespace Asn1

namespace Parser

inductive Call where
  | parse
  | parseAll
  deriving DecidableEq, Repr

def answer (parser : Parser) : Call → Answer
  | .parse => parser.parse
  | .parseAll => parser.parseAll

def answers (parser : Parser) : List Call → List Answer
  | [] => []
  | call :: later => parser.answer call :: (parser.answer call).parser.answers later

/-- The parser as calls made one after another leave it. -/
def after (parser : Parser) : List Call → Parser
  | [] => parser
  | call :: later => (parser.answer call).parser.after later

namespace Answer

def error? (answer : Answer) : Option DecodeError :=
  match answer.result with
  | .ok _ => none
  | .error error => some error

/-- Whether a value was taken from the data. It is not handed out if data is left after a value
that should be the last. -/
def tookValue (answer : Answer) : Bool :=
  match answer.result with
  | .ok _ | .error .unconsumedData => true
  | .error _ => false

theorem tookValue_of_error {answer : Answer} {error : DecodeError}
    (failed : answer.result = .error error) (fatal : error ≠ .unconsumedData) :
    answer.tookValue = false := by
  unfold tookValue
  rw [failed]
  cases error with
  | unconsumedData => exact absurd rfl fatal
  | invalidFormat => rfl
  | outOfBounds => rfl

end Answer

/-- All that a call can lead to. -/
inductive Outcome (parser : Parser) : Call → Answer → Prop
  | value {call value rest} :
      parser.isValid = true →
      Value.scan parser.options parser.reader.rest = .ok value rest →
      (call = .parseAll → rest = []) →
      Outcome parser call
        ⟨.ok value, { parser with reader := parser.reader.leaving rest.length }, []⟩
  | leftOver {value rest} :
      parser.isValid = true →
      Value.scan parser.options parser.reader.rest = .ok value rest →
      rest ≠ [] →
      Outcome parser .parseAll
        ⟨.error .unconsumedData,
          { parser with
            reader := parser.reader.leaving rest.length, failure? := some .unconsumedData },
          [.leftOver rest.length]⟩
  | rejected {call error rest} :
      parser.isValid = true →
      Value.scan parser.options parser.reader.rest = .error error rest →
      error ≠ .unconsumedData →
      Outcome parser call
        ⟨.error error,
          { parser with
            reader := parser.reader.leaving rest.length, failure? := some error, isValid := false },
          [.rejected parser.options.mode parser.reader.pos error]⟩
  | unusable {call} :
      parser.isValid = false →
      Outcome parser call
        ⟨.error (parser.failure?.getD .invalidFormat), parser,
          [.usedAfterFailure (parser.failure?.getD .invalidFormat)]⟩

section Step

variable {parser : Parser} {value : Value} {rest : Octets} {error : DecodeError}

theorem exists_split_of_scan {options : Options} {all : Octets}
    (scanned : Value.scan options all = .ok value rest) : ∃ used, all = used ++ rest := by
  obtain ⟨encoding, -, -, split⟩ := Encoding.scan_eq_ok_iff.mp scanned
  exact ⟨encoding.octets, split⟩

theorem ne_unconsumedData_of_scan {options : Options} {all : Octets}
    (failed : Value.scan options all = .error error rest) : error ≠ .unconsumedData := by
  rcases (Value.stable_scan options).invalidFormat_or_outOfBounds failed with rfl | rfl
  · nofun
  · nofun

theorem parse_of_ok (valid : parser.isValid = true)
    (scanned : Value.scan parser.options parser.reader.rest = .ok value rest) :
    parser.parse =
      ⟨.ok value, { parser with reader := parser.reader.leaving rest.length }, []⟩ := by
  simp [parse, Reader.run, valid, scanned]

theorem parse_of_error (valid : parser.isValid = true)
    (scanned : Value.scan parser.options parser.reader.rest = .error error rest) :
    parser.parse =
      ⟨.error error,
        { parser with
          reader := parser.reader.leaving rest.length, failure? := some error, isValid := false },
        [.rejected parser.options.mode parser.reader.pos error]⟩ := by
  simp [parse, Reader.run, valid, scanned]

theorem parse_of_not_isValid (invalid : parser.isValid = false) :
    parser.parse =
      ⟨.error (parser.failure?.getD .invalidFormat), parser,
        [.usedAfterFailure (parser.failure?.getD .invalidFormat)]⟩ := by
  simp [parse, invalid]

theorem answer_of_error (failed : parser.parse.result = .error error) (call : Call) :
    parser.answer call = parser.parse := by
  cases call with
  | parse => rfl
  | parseAll => simp [answer, parseAll, failed]

theorem parseAll_of_ok (valid : parser.isValid = true)
    (scanned : Value.scan parser.options parser.reader.rest = .ok value rest) :
    parser.parseAll =
      if rest = [] then
        ⟨.ok value, { parser with reader := parser.reader.leaving rest.length }, []⟩
      else
        ⟨.error .unconsumedData,
          { parser with
            reader := parser.reader.leaving rest.length, failure? := some .unconsumedData },
          [.leftOver rest.length]⟩ := by
  obtain ⟨used, split⟩ := exists_split_of_scan scanned
  have isLeft := Reader.hasUnconsumedData_leaving_iff split
  simp only [parseAll, parse_of_ok valid scanned, isLeft, Reader.remaining_leaving split]
  by_cases covered : rest = []
  · simp [covered]
  · simp [covered]

theorem outcome_answer (parser : Parser) (call : Call) :
    Outcome parser call (parser.answer call) := by
  cases valid : parser.isValid with
  | false =>
      have unusable := parse_of_not_isValid valid
      rw [answer_of_error (by rw [unusable]) call, unusable]
      exact .unusable valid
  | true =>
      cases scanned : Value.scan parser.options parser.reader.rest with
      | error error rest =>
          have rejected := parse_of_error valid scanned
          rw [answer_of_error (by rw [rejected]) call, rejected]
          exact .rejected valid scanned (ne_unconsumedData_of_scan scanned)
      | ok value rest =>
          cases call with
          | parse =>
              rw [answer, parse_of_ok valid scanned]
              exact .value valid scanned nofun
          | parseAll =>
              rw [answer, parseAll_of_ok valid scanned]
              by_cases covered : rest = []
              · rw [if_pos covered]
                exact .value valid scanned fun _ => covered
              · rw [if_neg covered]
                exact .leftOver valid scanned covered

end Step

/-- What holds of a parser of some data however it has been used. -/
structure InUse (options : Options) (data : Octets) (parser : Parser) : Prop where
  data_eq : parser.reader.data = data
  options_eq : parser.options = options
  failure_of_invalid : parser.isValid = false →
    ∃ error, error ≠ .unconsumedData ∧ parser.failure? = some error

variable {options : Options} {data : Octets} {parser : Parser} {call : Call} {answer : Answer}

theorem inUse_new (options : Options) (data : Octets) : InUse options data (new data options) :=
  ⟨rfl, rfl, nofun⟩

theorem Outcome.inUse (outcome : Outcome parser call answer) (before : InUse options data parser) :
    InUse options data answer.parser := by
  obtain ⟨sameData, sameOptions, failure⟩ := before
  cases outcome with
  | value valid scanned covered =>
      exact ⟨sameData, sameOptions, fun invalid => absurd (valid.symm.trans invalid) nofun⟩
  | leftOver valid scanned left =>
      exact ⟨sameData, sameOptions, fun invalid => absurd (valid.symm.trans invalid) nofun⟩
  | rejected valid scanned fatal => exact ⟨sameData, sameOptions, fun _ => ⟨_, fatal, rfl⟩⟩
  | unusable invalid => exact ⟨sameData, sameOptions, failure⟩

theorem InUse.after (before : InUse options data parser) (calls : List Call) :
    InUse options data (parser.after calls) := by
  induction calls generalizing parser with
  | nil => exact before
  | cons call later inductionHypothesis =>
      exact inductionHypothesis ((outcome_answer parser call).inUse before)

/-- A failure is recorded, and a success leaves the record as it is. -/
theorem Outcome.failure?_eq (outcome : Outcome parser call answer)
    (before : InUse options data parser) :
    answer.parser.failure? = answer.error?.or parser.failure? := by
  cases outcome with
  | value => rfl
  | leftOver => rfl
  | rejected => rfl
  | unusable invalid =>
      obtain ⟨error, -, recorded⟩ := before.failure_of_invalid invalid
      simp [Answer.error?, recorded]

theorem InUse.failure?_after (before : InUse options data parser) (calls : List Call) :
    (parser.after calls).failure? =
      ((parser.answers calls).filterMap Answer.error?).getLast?.or parser.failure? := by
  induction calls generalizing parser with
  | nil => rfl
  | cons call later inductionHypothesis =>
      have outcome := outcome_answer parser call
      rw [Parser.after, answers, inductionHypothesis (outcome.inUse before),
        outcome.failure?_eq before]
      cases failed : (parser.answer call).error? with
      | none => simp [failed]
      | some error => simp [failed, List.getLast?_cons]

theorem answer_of_not_isValid (invalid : parser.isValid = false) (call : Call) :
    parser.answer call =
      ⟨.error (parser.failure?.getD .invalidFormat), parser,
        [.usedAfterFailure (parser.failure?.getD .invalidFormat)]⟩ := by
  have unusable := parse_of_not_isValid invalid
  rw [answer_of_error (by rw [unusable]) call, unusable]

theorem after_of_not_isValid (invalid : parser.isValid = false) (calls : List Call) :
    parser.after calls = parser := by
  induction calls with
  | nil => rfl
  | cons call later inductionHypothesis =>
      rw [after, answer_of_not_isValid invalid]
      exact inductionHypothesis

theorem eq_of_mem_answers_of_not_isValid (invalid : parser.isValid = false) {calls : List Call}
    (membership : answer ∈ parser.answers calls) :
    answer =
      ⟨.error (parser.failure?.getD .invalidFormat), parser,
        [.usedAfterFailure (parser.failure?.getD .invalidFormat)]⟩ := by
  induction calls with
  | nil => cases membership
  | cons call later inductionHypothesis =>
      rw [answers, answer_of_not_isValid invalid] at membership
      rcases List.mem_cons.mp membership with same | membership
      · exact same
      · exact inductionHypothesis membership

/-- Answers that take encodings one after another, from one offset to another. -/
inductive Consecutive (options : Options) (data : Octets) : Nat → List Answer → Nat → Prop
  | nil (offset : Nat) : Consecutive options data offset [] offset
  | cons {offset stop : Nat} {answer : Answer} {later : List Answer} (encoding : Encoding) :
      encoding.Follows options.mode options.toTextOptions options.depth →
      encoding.octets <+: data.drop offset →
      answer.result = .ok encoding.value ∨ answer.result = .error .unconsumedData →
      answer.parser.reader.pos = offset + encoding.octets.length →
      Consecutive options data (offset + encoding.octets.length) later stop →
      Consecutive options data offset (answer :: later) stop

theorem Outcome.encoding_of_tookValue (outcome : Outcome parser call answer)
    (before : InUse options data parser) (took : answer.tookValue = true) :
    parser.isValid = true ∧
      ∃ (encoding : Encoding) (rest : Octets),
        encoding.Follows options.mode options.toTextOptions options.depth ∧
        parser.reader.rest = encoding.octets ++ rest ∧
        answer.parser.reader = parser.reader.leaving rest.length ∧
        (answer.result = .ok encoding.value ∨ answer.result = .error .unconsumedData) := by
  have sameOptions := before.options_eq
  subst sameOptions
  cases outcome with
  | value valid scanned covered =>
      obtain ⟨encoding, follows, rfl, split⟩ := Encoding.scan_eq_ok_iff.mp scanned
      exact ⟨valid, encoding, _, follows, split, rfl, .inl rfl⟩
  | leftOver valid scanned left =>
      obtain ⟨encoding, follows, rfl, split⟩ := Encoding.scan_eq_ok_iff.mp scanned
      exact ⟨valid, encoding, _, follows, split, rfl, .inr rfl⟩
  | rejected valid scanned fatal =>
      rw [Answer.tookValue_of_error rfl fatal] at took
      cases took
  | unusable invalid =>
      obtain ⟨error, fatal, recorded⟩ := before.failure_of_invalid invalid
      rw [Answer.tookValue_of_error rfl (by simpa [recorded] using fatal)] at took
      cases took

theorem Outcome.isValid_of_not_tookValue (outcome : Outcome parser call answer)
    (took : answer.tookValue = false) : answer.parser.isValid = false := by
  cases outcome with
  | value => cases took
  | leftOver => cases took
  | rejected => rfl
  | unusable invalid => exact invalid

theorem tookValue_of_mem_answers_of_not_isValid (before : InUse options data parser)
    (invalid : parser.isValid = false) {calls : List Call}
    (membership : answer ∈ parser.answers calls) : answer.tookValue = false := by
  obtain ⟨error, fatal, recorded⟩ := before.failure_of_invalid invalid
  rw [eq_of_mem_answers_of_not_isValid invalid membership, recorded]
  exact Answer.tookValue_of_error rfl fatal

/-- However a parser is used, what it takes are encodings one after another, and it stands at the
end of the last one for as long as it is valid. -/
theorem InUse.exists_consecutive (before : InUse options data parser) (calls : List Call) :
    ∃ stop,
      Consecutive options data parser.reader.pos
        ((parser.answers calls).filter Answer.tookValue) stop ∧
      ((parser.after calls).isValid = true → (parser.after calls).reader.pos = stop) := by
  induction calls generalizing parser with
  | nil => exact ⟨parser.reader.pos, .nil _, fun _ => rfl⟩
  | cons call later inductionHypothesis =>
      have outcome := outcome_answer parser call
      have next := outcome.inUse before
      rw [answers, Parser.after]
      cases took : (parser.answer call).tookValue with
      | true =>
          rcases outcome.encoding_of_tookValue before took with
            ⟨-, encoding, rest, follows, split, moved, result⟩
          have starts : encoding.octets <+: data.drop parser.reader.pos := by
            rw [← before.data_eq, ← Reader.rest, split]
            exact List.prefix_append _ _
          have stands := Reader.pos_leaving split
          rw [← moved] at stands
          obtain ⟨stop, consecutive, final⟩ := inductionHypothesis next
          rw [stands] at consecutive
          refine ⟨stop, ?_, final⟩
          rw [List.filter_cons_of_pos took]
          exact .cons encoding follows starts result stands consecutive
      | false =>
          have invalid := outcome.isValid_of_not_tookValue took
          have nothing : (parser.answer call :: (parser.answer call).parser.answers later).filter
              Answer.tookValue = [] := by
            rw [List.filter_eq_nil_iff, List.forall_mem_cons]
            refine ⟨by simp [took], fun answer membership => ?_⟩
            simp [tookValue_of_mem_answers_of_not_isValid next invalid membership]
          rw [nothing]
          refine ⟨parser.reader.pos, .nil _, fun valid => ?_⟩
          rw [after_of_not_isValid invalid, invalid] at valid
          cases valid

theorem Outcome.tookValue_iff (outcome : Outcome parser call answer)
    (before : InUse options data parser) :
    answer.tookValue = true ↔
      parser.isValid = true ∧ ∃ encoding : Encoding,
        encoding.Follows options.mode options.toTextOptions options.depth ∧
        encoding.octets <+: data.drop parser.reader.pos := by
  rw [← before.data_eq, ← Reader.rest]
  constructor
  · intro took
    rcases outcome.encoding_of_tookValue before took with ⟨valid, encoding, rest, follows, split, -⟩
    exact ⟨valid, encoding, follows, split ▸ List.prefix_append _ _⟩
  · rintro ⟨valid, encoding, follows, rest, split⟩
    have sameOptions := before.options_eq
    subst sameOptions
    cases outcome with
    | value => rfl
    | leftOver => rfl
    | rejected _ scanned =>
        rw [← split, Encoding.scan_octets follows] at scanned
        cases scanned
    | unusable invalid =>
        rw [invalid] at valid
        cases valid

theorem Outcome.result_eq_unconsumedData_iff (outcome : Outcome parser call answer)
    (before : InUse options data parser) :
    answer.result = .error .unconsumedData ↔
      parser.isValid = true ∧ call = .parseAll ∧ ∃ (encoding : Encoding) (rest : Octets),
        encoding.Follows options.mode options.toTextOptions options.depth ∧
        parser.reader.rest = encoding.octets ++ rest ∧ rest ≠ [] := by
  have sameOptions := before.options_eq
  subst sameOptions
  cases outcome with
  | @value call value rest valid scanned covered =>
      constructor
      · nofun
      · rintro ⟨-, all, encoding, left, follows, split, nonempty⟩
        rw [split, Encoding.scan_octets follows] at scanned
        cases scanned
        exact absurd (covered all) nonempty
  | leftOver valid scanned left =>
      obtain ⟨encoding, follows, -, split⟩ := Encoding.scan_eq_ok_iff.mp scanned
      exact ⟨fun _ => ⟨valid, rfl, encoding, _, follows, split, left⟩, fun _ => rfl⟩
  | rejected valid scanned fatal =>
      constructor
      · intro same
        exact absurd (Except.error.inj same) fatal
      · rintro ⟨-, -, encoding, left, follows, split, -⟩
        rw [split, Encoding.scan_octets follows] at scanned
        cases scanned
  | unusable invalid =>
      constructor
      · intro same
        obtain ⟨error, fatal, recorded⟩ := before.failure_of_invalid invalid
        rw [recorded] at same
        exact absurd (Except.error.inj same) fatal
      · intro use
        rw [invalid] at use
        cases use.1

def Event.isRejection : Event → Bool
  | .rejected _ _ _ => true
  | _ => false

theorem Outcome.countP_isRejection (outcome : Outcome parser call answer) :
    answer.events.countP Event.isRejection + answer.parser.isValid.toNat =
      parser.isValid.toNat := by
  cases outcome with
  | value valid => simp [valid]
  | leftOver valid => simp [valid, Event.isRejection]
  | rejected valid => simp [valid, Event.isRejection]
  | unusable invalid => simp [invalid, Event.isRejection]

theorem countP_isRejection_answers (parser : Parser) (calls : List Call) :
    ((parser.answers calls).flatMap Answer.events).countP Event.isRejection +
        (parser.after calls).isValid.toNat =
      parser.isValid.toNat := by
  induction calls generalizing parser with
  | nil => simp [answers, after]
  | cons call later inductionHypothesis =>
      have step := (outcome_answer parser call).countP_isRejection
      have run := inductionHypothesis (parser.answer call).parser
      rw [answers, after, List.flatMap_cons, List.countP_append]
      omega

theorem Outcome.of_ok (outcome : Outcome parser call answer) {value : Value}
    (succeeded : answer.result = .ok value) :
    answer.parser.isValid = true ∧ answer.parser.failure? = parser.failure? ∧
      answer.events = [] := by
  cases outcome with
  | value valid => exact ⟨valid, rfl, rfl⟩
  | leftOver => cases succeeded
  | rejected => cases succeeded
  | unusable => cases succeeded

theorem Outcome.of_unconsumedData (outcome : Outcome parser call answer)
    (before : InUse options data parser) (left : answer.result = .error .unconsumedData) :
    answer.parser.isValid = true ∧ answer.parser.failure? = some .unconsumedData ∧
      answer.events = [.leftOver (data.length - answer.parser.reader.pos)] := by
  cases outcome with
  | value => cases left
  | leftOver valid scanned nonempty =>
      obtain ⟨used, split⟩ := exists_split_of_scan scanned
      have remaining := Reader.remaining_leaving split
      refine ⟨valid, rfl, ?_⟩
      rw [← before.data_eq]
      exact congrArg (fun count => [Event.leftOver count]) remaining.symm
  | rejected valid scanned fatal => exact absurd (Except.error.inj left) fatal
  | unusable invalid =>
      obtain ⟨error, fatal, recorded⟩ := before.failure_of_invalid invalid
      rw [recorded] at left
      exact absurd (Except.error.inj left) fatal

theorem Outcome.of_fatal (outcome : Outcome parser call answer) (valid : parser.isValid = true)
    {error : DecodeError} (failed : answer.result = .error error)
    (fatal : error ≠ .unconsumedData) :
    answer.parser.isValid = false ∧ answer.parser.failure? = some error ∧
      answer.events = [.rejected parser.options.mode parser.reader.pos error] := by
  cases outcome with
  | value => cases failed
  | leftOver => exact absurd (Except.error.inj failed).symm fatal
  | rejected =>
      cases failed
      exact ⟨rfl, rfl, rfl⟩
  | unusable invalid =>
      rw [invalid] at valid
      cases valid

/-- Whatever calls a parser has answered, the values it took are consecutive encodings from the
start of the data, and it stands at the end of the last one for as long as it is valid. A value is
taken if and only if one starts there. It is not handed out, and the parser stays valid, if data is
left after a value that should be the last. Any other failure is final: nothing changes afterwards,
and each later call fails in the same way. The latest failure is the one that is recorded, each kind
of failure is reported in its own way, and there is one rejection at most. -/
theorem calls_of_new (options : Options) (data : Octets) (calls : List Call) (call : Call) :
    let earlier := (new data options).answers calls
    let parser := (new data options).after calls
    let answer := parser.answer call
    (∃ stop, Consecutive options data 0 (earlier.filter Answer.tookValue) stop ∧
      (parser.isValid = true → parser.reader.pos = stop)) ∧
    (answer.tookValue = true ↔
      parser.isValid = true ∧ ∃ encoding : Encoding,
        encoding.Follows options.mode options.toTextOptions options.depth ∧
        encoding.octets <+: data.drop parser.reader.pos) ∧
    (answer.result = .error .unconsumedData ↔
      parser.isValid = true ∧ call = .parseAll ∧ ∃ (encoding : Encoding) (rest : Octets),
        encoding.Follows options.mode options.toTextOptions options.depth ∧
        data.drop parser.reader.pos = encoding.octets ++ rest ∧ rest ≠ []) ∧
    (answer.result = .error .unconsumedData →
      answer.parser.isValid = true ∧ answer.parser.failure? = some .unconsumedData ∧
      answer.events = [.leftOver (data.length - answer.parser.reader.pos)]) ∧
    (∀ value, answer.result = .ok value →
      answer.parser.isValid = true ∧ answer.parser.failure? = parser.failure? ∧
      answer.events = []) ∧
    (∀ error, parser.isValid = true → answer.result = .error error → error ≠ .unconsumedData →
      (error = .invalidFormat ∨ error = .outOfBounds) ∧
      answer.parser.isValid = false ∧ answer.parser.failure? = some error ∧
      answer.events = [.rejected options.mode parser.reader.pos error] ∧
      ∀ later, answer.parser.after later = answer.parser ∧
        ∀ next ∈ answer.parser.answers later,
          next.result = .error error ∧ next.events = [.usedAfterFailure error]) ∧
    (earlier.flatMap Answer.events).countP Event.isRejection = (if parser.isValid then 0 else 1) ∧
    parser.failure? = (earlier.filterMap Answer.error?).getLast? := by
  intro earlier parser answer
  have inUse : InUse options data parser := (inUse_new options data).after calls
  have outcome : Outcome parser call answer := outcome_answer parser call
  refine ⟨(inUse_new options data).exists_consecutive calls, outcome.tookValue_iff inUse, ?_,
    outcome.of_unconsumedData inUse, fun value => outcome.of_ok,
    fun error valid failed fatal => ?_, ?_, ?_⟩
  · rw [outcome.result_eq_unconsumedData_iff inUse, Reader.rest, inUse.data_eq]
  · obtain ⟨invalid, recorded, reported⟩ := outcome.of_fatal valid failed fatal
    rw [inUse.options_eq] at reported
    refine ⟨?_, invalid, recorded, reported, fun later => ⟨after_of_not_isValid invalid later, ?_⟩⟩
    · cases error with
      | invalidFormat => exact .inl rfl
      | outOfBounds => exact .inr rfl
      | unconsumedData => exact absurd rfl fatal
    · intro next membership
      have same := eq_of_mem_answers_of_not_isValid invalid membership
      rw [recorded] at same
      rw [same]
      exact ⟨rfl, rfl⟩
  · have count : (earlier.flatMap Answer.events).countP Event.isRejection +
        parser.isValid.toNat = 1 := countP_isRejection_answers (new data options) calls
    cases valid : parser.isValid with
    | true => simpa [valid] using count
    | false => simpa [valid] using count
  · have record := (inUse_new options data).failure?_after calls
    rwa [show (new data options).failure? = none from rfl, Option.or_none] at record

/-- Two nulls and the start of a third: data is left after the first, the second is decoded, and
the third is out of bounds for good. -/
theorem calls_of_new_two_nulls :
    ((new [0x05, 0x00, 0x05, 0x00, 0x05] {}).answer .parseAll).events = [.leftOver 3] ∧
    (((new [0x05, 0x00, 0x05, 0x00, 0x05] {}).after [.parseAll]).answer .parse).events = [] ∧
    (((new [0x05, 0x00, 0x05, 0x00, 0x05] {}).after [.parseAll, .parse]).answer .parseAll).events =
      [.rejected .der 4 .outOfBounds] ∧
    ∀ later, ∀ next ∈ (((new [0x05, 0x00, 0x05, 0x00, 0x05] {}).after
        [.parseAll, .parse]).answer .parseAll).parser.answers later,
      next.result = .error .outOfBounds := by
  have first := calls_of_new {} [0x05, 0x00, 0x05, 0x00, 0x05] [] .parseAll
  have second := calls_of_new {} [0x05, 0x00, 0x05, 0x00, 0x05] [.parseAll] .parse
  have third := calls_of_new {} [0x05, 0x00, 0x05, 0x00, 0x05] [.parseAll, .parse] .parseAll
  have left := first.2.2.2.1 (by decide +kernel)
  have succeeded := second.2.2.2.2.1 (.generic .null []) (by decide +kernel)
  have failed := third.2.2.2.2.2.1 .outOfBounds (by decide +kernel) (by decide +kernel) (by decide)
  refine ⟨?_, succeeded.2.2, ?_, fun later next membership => ?_⟩
  · exact left.2.2.trans (by decide +kernel)
  · exact failed.2.2.2.1.trans (by decide +kernel)
  · exact ((failed.2.2.2.2 later).2 next membership).1

end Parser

end Asn1
