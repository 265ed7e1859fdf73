import Asn1.Unicode.Utf8

/-!
Writing to a place that may stop taking octets. A reader that has gone away is no failure, since it
has seen all that it wanted.
-/

namespace Asn1

inductive WriteError where
  /-- Nobody reads what is written. -/
  | brokenPipe
  | other
  deriving DecidableEq, Repr

/-- A place that takes octets, what it has taken, and how it fails. -/
structure Sink where
  received : Octets := []
  /-- How many octets it takes in all, if there is a limit. -/
  limit? : Option Nat := none
  /-- The kind of its failures. -/
  failure : WriteError := .other
  /-- Whether it fails when what was written has to be passed on. -/
  failsToFlush : Bool := false

namespace Sink

/-- A sink that has taken octets, and whether all went well. -/
abbrev Outcome := Except WriteError Unit × Sink

def write (sink : Sink) (octets : Octets) : Outcome :=
  match sink.limit? with
  | none => (.ok (), { sink with received := sink.received ++ octets })
  | some limit =>
      let room := limit - sink.received.length
      if octets.length ≤ room then
        (.ok (), { sink with received := sink.received ++ octets })
      else
        (.error sink.failure, { sink with received := sink.received ++ octets.take room })

/-- Writes pieces of text one after another up to the first failure. -/
def writeAll (sink : Sink) : List String → Outcome
  | [] => (.ok (), sink)
  | piece :: rest =>
      match sink.write (Utf8.ofString piece) with
      | (.ok (), sink) => sink.writeAll rest
      | failed => failed

def flush (sink : Sink) : Outcome :=
  (if sink.failsToFlush then .error sink.failure else .ok (), sink)

def ignoringBrokenPipe : Outcome → Outcome
  | (.error .brokenPipe, sink) => (.ok (), sink)
  | outcome => outcome

def put (sink : Sink) (pieces : List String) : Outcome :=
  ignoringBrokenPipe <|
    match sink.writeAll pieces with
    | (.ok (), sink) => sink.flush
    | failed => failed

end Sink

end Asn1
