import Asn1.Proofs.Encoding.Unambiguous
import Asn1.Proofs.Reader

/-!
# Parsers on fresh data

What a parser answers first, and where it then stands, in terms of the scan of one value. Under
basic rules it accepts the grammar `Encoding.IsBer` and nothing else. Distinguished rules accept
those of its encodings in which every node is canonical.
-/

namespace Asn1

namespace Parser

variable {data rest : Octets} {options : Options} {value : Value} {error : DecodeError}

theorem parse_new_of_ok (scanned : Value.scan options data = .ok value rest) :
    (new data options).parse.result = .ok value ∧
      (new data options).parse.parser.reader = (Reader.ofOctets data).leaving rest.length := by
  simp [parse, new, Reader.run, scanned]

theorem parse_new_of_error (scanned : Value.scan options data = .error error rest) :
    (new data options).parse.result = .error error ∧
      (new data options).parse.parser.reader = (Reader.ofOctets data).leaving rest.length := by
  simp [parse, new, Reader.run, scanned]

theorem pos_parse_new (data : Octets) (options : Options) :
    (new data options).parse.parser.reader.pos =
      data.length - (Scan.left (Value.scan options data)).length := by
  cases scanned : Value.scan options data with
  | ok value rest =>
      rw [(parse_new_of_ok scanned).2]
      rfl
  | error error rest =>
      rw [(parse_new_of_error scanned).2]
      rfl

theorem parse_new_eq_ok_iff {pos : Nat} :
    (new data options).parse.result = .ok value ∧
        (new data options).parse.parser.reader.pos = pos ↔
      ∃ encoding : Encoding,
        encoding.Follows options.mode options.toTextOptions options.depth ∧
        encoding.octets <+: data ∧ encoding.value = value ∧ encoding.octets.length = pos := by
  constructor
  · rintro ⟨succeeded, rfl⟩
    cases scanned : Value.scan options data with
    | ok found rest =>
        have answer := parse_new_of_ok scanned
        rw [answer.1, Except.ok.injEq] at succeeded
        subst succeeded
        obtain ⟨encoding, follows, rfl, rfl⟩ := Encoding.scan_eq_ok_iff.mp scanned
        refine ⟨encoding, follows, List.prefix_append _ _, rfl, ?_⟩
        simp [pos_parse_new, scanned, Scan.left]
    | error error rest =>
        rw [(parse_new_of_error scanned).1] at succeeded
        cases succeeded
  · rintro ⟨encoding, follows, ⟨rest, rfl⟩, rfl, rfl⟩
    have scanned := Encoding.scan_octets follows rest
    refine ⟨(parse_new_of_ok scanned).1, ?_⟩
    simp [pos_parse_new, scanned, Scan.left]

theorem decode_of_ok (scanned : Value.scan options data = .ok value rest) :
    options.decode data = if rest = [] then .ok value else .error .unconsumedData := by
  have answer := parse_new_of_ok scanned
  have suffix := Value.forward_scan options data
  rw [scanned] at suffix
  obtain ⟨used, split⟩ := suffix
  have isLeft := @Reader.hasUnconsumedData_leaving_iff (.ofOctets data) used rest split.symm
  simp only [Options.decode, parseAll, answer.1, answer.2, isLeft]
  by_cases covered : rest = []
  · simp [covered, answer.1]
  · simp [covered]

theorem decode_of_error (scanned : Value.scan options data = .error error rest) :
    options.decode data = .error error := by
  have answer := parse_new_of_error scanned
  simp only [Options.decode, parseAll, answer.1]

theorem decode_eq_ok_iff :
    options.decode data = .ok value ↔
      ∃ encoding : Encoding,
        encoding.Follows options.mode options.toTextOptions options.depth ∧
        encoding.octets = data ∧ encoding.value = value := by
  constructor
  · intro decoded
    cases scanned : Value.scan options data with
    | ok found rest =>
        rw [decode_of_ok scanned] at decoded
        split at decoded
        · next covered =>
            cases decoded
            obtain ⟨encoding, follows, same, rfl⟩ := Encoding.scan_eq_ok_iff.mp scanned
            rw [covered, List.append_nil]
            exact ⟨encoding, follows, rfl, same⟩
        · cases decoded
    | error error rest =>
        rw [decode_of_error scanned] at decoded
        cases decoded
  · rintro ⟨encoding, follows, rfl, rfl⟩
    have scanned := Encoding.scan_octets follows []
    rw [List.append_nil] at scanned
    rw [decode_of_ok scanned, if_pos rfl]

/-- Basic rules accept exactly their grammar: a parser on fresh data succeeds if and only if the
data starts with an encoding of the parser's level. The value is then the one encoded there, and
the parser stands at the end of the encoding. -/
theorem parse_ber_eq_ok_iff (options : TextOptions) (depth : Nat) (data : Octets) (value : Value)
    (pos : Nat) :
    (new data { toTextOptions := options, mode := .ber, depth }).parse.result = .ok value ∧
        (new data { toTextOptions := options, mode := .ber, depth }).parse.parser.reader.pos = pos ↔
      ∃ encoding : Encoding, encoding.IsBer options depth ∧ encoding.octets <+: data ∧
        encoding.value = value ∧ encoding.octets.length = pos := by
  simp only [parse_new_eq_ok_iff, Encoding.follows_ber_iff]

/-- Distinguished rules are the canonical part of basic rules: they decode data to a value if and
only if basic rules do and the one encoding that the data is has canonical nodes only. -/
theorem decode_der_eq_ok_iff_canonical (options : TextOptions) (depth : Nat) (data : Octets)
    (value : Value) :
    Options.decode { toTextOptions := options, mode := .der, depth } data = .ok value ↔
      Options.decode { toTextOptions := options, mode := .ber, depth } data = .ok value ∧
        ∃ encoding : Encoding,
          (∀ other : Encoding,
            other.IsBer options depth ∧ other.octets = data ↔ other = encoding) ∧
          ∀ node ∈ encoding.nodes, node.IsCanonical := by
  simp only [decode_eq_ok_iff, Encoding.follows_ber_iff]
  constructor
  · rintro ⟨encoding, ⟨ber, canonical⟩, rfl, rfl⟩
    refine ⟨⟨encoding, ber, rfl, rfl⟩, encoding, fun other => ?_, canonical rfl⟩
    constructor
    · exact fun ⟨otherBer, same⟩ => otherBer.eq_of_octets_eq ber same
    · rintro rfl
      exact ⟨ber, rfl⟩
  · rintro ⟨⟨found, ber, covers, rfl⟩, encoding, unique, canonical⟩
    have same : found = encoding := (unique found).mp ⟨ber, covers⟩
    subst same
    exact ⟨found, ⟨ber, fun _ => canonical⟩, covers, rfl⟩

end Parser

end Asn1
