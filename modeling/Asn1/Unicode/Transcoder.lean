import Asn1.Unicode.Charset

/-!
Converting text into UTF-8, as far as the output has room. A conversion never cuts a character: it
stops before the first one that does not fit or cannot be read.
-/

namespace Asn1

structure Transcoder where
  source : Charset
  deriving DecidableEq, Repr

namespace Transcoder

/-- A transcoder between two encodings. Only UTF-8 is supported as the target. -/
def between (source target : Charset) : Except TranscodeError Transcoder :=
  if target = .utf8 then .ok { source } else .error .unsupported

structure Conversion where
  /-- The octets written. -/
  produced : Octets
  /-- The input that was not converted. -/
  left : Octets
  /-- Why the conversion stopped before the end of the input. -/
  error? : Option TranscodeError
  deriving DecidableEq, Repr

/-- Converts as much of the input as can be read and fits into `room` octets, where no room means
that there is no limit. -/
def fill (transcoder : Transcoder) (room : Option Nat) (input : Octets) : Conversion :=
  if input = [] then
    ⟨[], [], none⟩
  else
    match transcoder.source.first input with
    | .error error => ⟨[], input, some error⟩
    | .ok sized =>
        let encoded := String.utf8EncodeChar sized.char
        if room.all (encoded.length ≤ ·) then
          let later := transcoder.fill (room.map (· - encoded.length)) (input.drop sized.size)
          { later with produced := encoded ++ later.produced }
        else
          ⟨[], input, some .outputFull⟩
termination_by input.length
decreasing_by
  have positive := sized.size_pos
  have nonempty : input.length ≠ 0 := by simpa using ‹¬input = []›
  simp only [List.length_drop]
  omega

/-- Converts input behind output that may not grow beyond a capacity. -/
def convert (transcoder : Transcoder) (capacity : Option Nat) (output input : Octets) :
    Conversion :=
  transcoder.fill (capacity.map (· - output.length)) input

theorem fill_left_suffix (transcoder : Transcoder) (room : Option Nat) (input : Octets) :
    (transcoder.fill room input).left <:+ input := by
  fun_induction fill transcoder room input with
  | case1 => exact List.suffix_refl []
  | case2 => exact List.suffix_refl _
  | case3 room input nonempty sized found encoded fits later inductionHypothesis =>
      exact inductionHypothesis.trans (List.drop_suffix _ _)
  | case4 => exact List.suffix_refl _

/-- If the output gets full although it has room for any character, input was used up. -/
theorem length_left_lt_of_outputFull {transcoder : Transcoder} {room : Nat} {input : Octets}
    (large : 4 ≤ room) (full : (transcoder.fill (some room) input).error? = some .outputFull)
    (readable : ∀ error, transcoder.source.first input = .error error → error ≠ .outputFull) :
    (transcoder.fill (some room) input).left.length < input.length := by
  rw [fill] at full ⊢
  by_cases empty : input = []
  · simp [empty] at full
  · have nonempty : input.length ≠ 0 := by simpa using empty
    simp only [empty, ↓reduceIte] at full ⊢
    cases found : transcoder.source.first input with
    | error error =>
        simp only [found, Option.some.injEq] at full
        exact absurd full (readable error found)
    | ok sized =>
        have short : (String.utf8EncodeChar sized.char).length ≤ room := by
          rw [String.length_utf8EncodeChar]
          exact Nat.le_trans sized.char.utf8Size_le_four large
        have suffix := fill_left_suffix transcoder
          (some (room - (String.utf8EncodeChar sized.char).length)) (input.drop sized.size)
        have positive := sized.size_pos
        have lengths := suffix.length_le
        simp only [List.length_drop] at lengths
        simp only [Option.all_some, short, decide_true, ↓reduceIte, Option.map_some]
        omega

end Transcoder

end Asn1
