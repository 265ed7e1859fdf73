import Asn1.Proofs.Unicode.Transcoder

/-!
# Converting in several calls

However the room for output is divided among calls, these together take the input as one conversion
without a limit does. Each call takes whole characters, and it is full only if the next one is there
and does not fit. The first call that is not full ends as the one conversion does.
-/

namespace Asn1

namespace Transcoder

/-- A call: whether the output is emptied before, and how long it may get. -/
structure Call where
  empties : Bool
  capacity : Option Nat
  deriving DecidableEq, Repr

/-- What stands between calls: the output and the input that is left. -/
structure Stage where
  output : Octets
  left : Octets
  deriving DecidableEq, Repr

def Stage.outputFor (stage : Stage) (call : Call) : Octets :=
  if call.empties then [] else stage.output

def answer (transcoder : Transcoder) (stage : Stage) (call : Call) : Conversion :=
  transcoder.convert call.capacity (stage.outputFor call) stage.left

def next (transcoder : Transcoder) (stage : Stage) (call : Call) : Stage where
  output := stage.outputFor call ++ (transcoder.answer stage call).produced
  left := (transcoder.answer stage call).left

def answers (transcoder : Transcoder) (stage : Stage) : List Call → List Conversion
  | [] => []
  | call :: later =>
      transcoder.answer stage call :: transcoder.answers (transcoder.next stage call) later

def after (transcoder : Transcoder) (stage : Stage) : List Call → Stage
  | [] => stage
  | call :: later => transcoder.after (transcoder.next stage call) later

variable {source : Charset} {stage : Stage} {call : Call}

theorem converts_answer (source : Charset) (stage : Stage) (call : Call) :
    Converts source (call.capacity.map (· - (stage.outputFor call).length)) stage.left
      (answer ⟨source⟩ stage call) :=
  converts_fill _ _ _

theorem takes_after (source : Charset) (stage : Stage) (calls : List Call) :
    Takes source stage.left (after ⟨source⟩ stage calls).left
      ((answers ⟨source⟩ stage calls).flatMap Conversion.produced) := by
  induction calls generalizing stage with
  | nil => exact .nothing source stage.left
  | cons call later inductionHypothesis =>
      have first := (converts_answer source stage call).takes
      exact first.trans (inductionHypothesis (next ⟨source⟩ stage call))

theorem produced_eq_nil_of_length_le {capacity : Nat} (limited : call.capacity = some capacity)
    (full : capacity ≤ (stage.outputFor call).length) :
    (answer ⟨source⟩ stage call).produced = [] := by
  have fits := (converts_answer source stage call).fits
  rw [limited, Option.map_some] at fits
  have short := fits _ rfl
  rw [← List.length_eq_zero_iff]
  omega

theorem length_append_produced_le {capacity : Nat} (limited : call.capacity = some capacity)
    (within : (stage.outputFor call).length ≤ capacity) :
    (stage.outputFor call ++ (answer ⟨source⟩ stage call).produced).length ≤ capacity := by
  have fits := (converts_answer source stage call).fits
  rw [limited, Option.map_some] at fits
  have short := fits _ rfl
  rw [List.length_append]
  omega

theorem exists_char_of_outputFull
    (full : (answer ⟨source⟩ stage call).error? = some .outputFull) :
    ∃ capacity char part rest, call.capacity = some capacity ∧
      source.encodeChar? char = some part ∧
      (answer ⟨source⟩ stage call).left = part ++ rest ∧
      capacity < (stage.outputFor call ++ (answer ⟨source⟩ stage call).produced ++
        String.utf8EncodeChar char).length := by
  have stops := (converts_answer source stage call).stops
  rw [full] at stops
  obtain ⟨char, part, rest, limit, encoded, stands, limited, long⟩ := stops.of_outputFull
  cases capacity : call.capacity with
  | none =>
      rw [capacity] at limited
      cases limited
  | some bound =>
      rw [capacity, Option.map_some, Option.map_some, Option.some.injEq] at limited
      refine ⟨bound, char, part, rest, rfl, encoded, stands, ?_⟩
      rw [List.length_append, List.length_append, String.length_utf8EncodeChar]
      omega

theorem convert_unlimited_of_ne_outputFull
    (notFull : (answer ⟨source⟩ stage call).error? ≠ some .outputFull) (output : Octets) :
    convert ⟨source⟩ none output stage.left = answer ⟨source⟩ stage call :=
  fill_none_of_ne_outputFull notFull

/-- However calls are made, with whatever capacities and whether the output is emptied or kept in
front of each, all that they append is the text that they take from the front of the input, and the
beginning of what one call without a limit appends. Each call takes whole characters. It appends
nothing to output that has reached its capacity, and does not make output longer than that. It is
full only if the next character stands first in what is left and does not fit. A call that is not
full ends as the one call without a limit does. -/
theorem calls_continue_conversion (source : Charset) (input output : Octets) (calls : List Call)
    (call : Call) :
    let stage := after ⟨source⟩ ⟨output, input⟩ calls
    let appended := (answers ⟨source⟩ ⟨output, input⟩ calls).flatMap Conversion.produced
    let found := stage.outputFor call
    let conversion := answer ⟨source⟩ stage call
    let whole := convert ⟨source⟩ none [] input
    Takes source input stage.left appended ∧
    appended <+: whole.produced ∧
    Takes source stage.left conversion.left conversion.produced ∧
    (∀ capacity, call.capacity = some capacity →
      (capacity ≤ found.length → conversion.produced = []) ∧
      (found.length ≤ capacity → (found ++ conversion.produced).length ≤ capacity)) ∧
    (conversion.error? = some .outputFull → ∃ capacity char part rest,
      call.capacity = some capacity ∧ source.encodeChar? char = some part ∧
      conversion.left = part ++ rest ∧
      capacity < (found ++ conversion.produced ++ String.utf8EncodeChar char).length) ∧
    (conversion.error? ≠ some .outputFull →
      conversion.error? = whole.error? ∧ conversion.left = whole.left ∧
        appended ++ conversion.produced = whole.produced) := by
  intro stage appended found conversion whole
  have takes : Takes source input stage.left appended := takes_after source ⟨output, input⟩ calls
  have continued : whole = (convert ⟨source⟩ none [] stage.left).behind appended :=
    takes.fill_none_eq
  refine ⟨takes, ?_, (converts_answer source stage call).takes, ?_, exists_char_of_outputFull, ?_⟩
  · rw [continued]
    exact List.prefix_append appended _
  · intro capacity limited
    exact ⟨produced_eq_nil_of_length_le limited, length_append_produced_le limited⟩
  · intro notFull
    rw [continued, convert_unlimited_of_ne_outputFull notFull]
    exact ⟨rfl, rfl, rfl⟩

/-- Three characters of three octets each: one fits into four octets, and the others into six. -/
theorem calls_continue_three_characters :
    (∃ capacity char part rest, some 4 = some capacity ∧
      Charset.utf8.encodeChar? char = some part ∧
      [0xe7, 0xb7, 0x91, 0xe7, 0xb7, 0x91] = part ++ rest ∧
      capacity < ([0xe7, 0xb7, 0x91] ++ String.utf8EncodeChar char).length) ∧
    [0xe7, 0xb7, 0x91, 0xe7, 0xb7, 0x91].length ≤ 6 ∧
    [0xe7, 0xb7, 0x91] ++ [0xe7, 0xb7, 0x91, 0xe7, 0xb7, 0x91] =
      (convert ⟨.utf8⟩ none []
        [0xe7, 0xb7, 0x91, 0xe7, 0xb7, 0x91, 0xe7, 0xb7, 0x91]).produced := by
  have first := calls_continue_conversion .utf8
    [0xe7, 0xb7, 0x91, 0xe7, 0xb7, 0x91, 0xe7, 0xb7, 0x91] [] [] ⟨false, some 4⟩
  have second := calls_continue_conversion .utf8
    [0xe7, 0xb7, 0x91, 0xe7, 0xb7, 0x91, 0xe7, 0xb7, 0x91] [] [⟨false, some 4⟩] ⟨true, some 6⟩
  have answered : answer ⟨.utf8⟩ ⟨[], [0xe7, 0xb7, 0x91, 0xe7, 0xb7, 0x91, 0xe7, 0xb7, 0x91]⟩
      ⟨false, some 4⟩ =
        ⟨[0xe7, 0xb7, 0x91], [0xe7, 0xb7, 0x91, 0xe7, 0xb7, 0x91], some .outputFull⟩ := by
    decide +kernel
  have answeredNext : answer ⟨.utf8⟩ ⟨[0xe7, 0xb7, 0x91], [0xe7, 0xb7, 0x91, 0xe7, 0xb7, 0x91]⟩
      ⟨true, some 6⟩ = ⟨[0xe7, 0xb7, 0x91, 0xe7, 0xb7, 0x91], [], none⟩ := by
    decide +kernel
  have found : Stage.outputFor ⟨[], [0xe7, 0xb7, 0x91, 0xe7, 0xb7, 0x91, 0xe7, 0xb7, 0x91]⟩
      ⟨false, some 4⟩ = [] := rfl
  simp only [answers, after, next, answered, found, List.nil_append, answeredNext] at first second
  have full := first.2.2.2.2.1 trivial
  have fits := (second.2.2.2.1 6 rfl).2 (Nat.zero_le 6)
  have ended := second.2.2.2.2.2
  exact ⟨full, fits, (ended nofun).2.2⟩

end Transcoder

end Asn1
