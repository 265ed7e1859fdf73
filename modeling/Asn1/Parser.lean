import Asn1.Reader
import Asn1.Value.Scan

/-!
Decoding values one after another. Broken data leaves a parser unusable, since nobody knows where
the next value would start; data left after a value does not.
-/

namespace Asn1

structure Parser where
  reader : Reader
  options : Options
  /-- The latest failure. -/
  failure? : Option DecodeError
  /-- Whether the parser can still be used. -/
  isValid : Bool

namespace Parser

inductive Event where
  /-- A value that starts at an offset was not decoded. -/
  | rejected (mode : Mode) (offset : Nat) (error : DecodeError)
  /-- Octets are left after a value that should be the last. -/
  | leftOver (count : Nat)
  /-- The parser was used although it is not valid anymore. -/
  | usedAfterFailure (error : DecodeError)
  deriving DecidableEq, Repr

/-- An answer, the parser as it is then, and what was reported. -/
structure Answer where
  result : Except DecodeError Value
  parser : Parser
  events : List Event

def new (data : Octets) (options : Options) : Parser :=
  { reader := .ofOctets data, options, failure? := none, isValid := true }

/-- Decodes the next value. More data may follow it. -/
def parse (parser : Parser) : Answer :=
  if parser.isValid then
    match parser.reader.run (Value.scan parser.options) with
    | (.ok value, reader) => ⟨.ok value, { parser with reader }, []⟩
    | (.error error, reader) =>
        ⟨.error error, { parser with reader, failure? := some error, isValid := false },
          [.rejected parser.options.mode parser.reader.pos error]⟩
  else
    let error := parser.failure?.getD .invalidFormat
    ⟨.error error, parser, [.usedAfterFailure error]⟩

/-- Decodes a value that has to cover all the data that is left. -/
def parseAll (parser : Parser) : Answer :=
  let answer := parser.parse
  match answer.result with
  | .error _ => answer
  | .ok _ =>
      if answer.parser.reader.hasUnconsumedData then
        ⟨.error .unconsumedData, { answer.parser with failure? := some .unconsumedData },
          answer.events ++ [.leftOver answer.parser.reader.remaining]⟩
      else
        answer

end Parser

def Options.decode (options : Options) (data : Octets) : Except DecodeError Value :=
  (Parser.new data options).parseAll.result

end Asn1
