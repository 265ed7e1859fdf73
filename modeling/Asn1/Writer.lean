import Asn1.Json.Builder
import Asn1.Listing
import Asn1.Steps

/-!
Showing values and texts on any writer. A listing takes many small writes, and the first of them
that fails ends it.
-/

namespace Asn1

def Steps.ignoringBrokenPipe {m : Type → Type} [Monad m] {Failure Kind : Type} [DecidableEq Kind]
    (kind : Failure → Kind) (brokenPipe : Kind) (steps : Steps m Failure Unit) :
    Steps m Failure Unit :=
  tryCatch steps fun failure => if kind failure = brokenPipe then pure () else throw failure

structure Writer (m : Type → Type) (Failure : Type) where
  /-- Writes all of the octets. -/
  write : Octets → Steps m Failure Unit
  /-- Passes on what was written. -/
  flush : Steps m Failure Unit
  /-- The parts in which text is written that is put together first. -/
  cut : String → List Octets
  flatten_cut : ∀ text, (cut text).flatten = Utf8.ofString text

namespace Writer

def whole (text : String) : List Octets := [Utf8.ofString text]

theorem flatten_whole (text : String) : (whole text).flatten = Utf8.ofString text :=
  List.append_nil _

end Writer

namespace Value

/-- The start of the line of a value at a depth. -/
def head (depth : Nat) (value : Value) : String :=
  String.ofList (List.replicate (depth * 2) ' ') ++ value.description ++ " ["
    ++ Decimal.text value.body.length ++ "]"

end Value

inductive Subject where
  | value (format : OutputFormat) (value : Value)
  /-- A text as it is. -/
  | text (text : String)

def Subject.pieces : Subject → List String
  | value format shown => shown.pieces format
  | text shown => [shown]

namespace Writer

variable {m : Type → Type} [Monad m] {Failure Kind : Type} (writer : Writer m Failure)

def print (text : String) : Steps m Failure Unit := forM (writer.cut text) writer.write

mutual

/-- Shows a value at a depth and everything nested in it. -/
def list (depth : Nat) : Value → Steps m Failure Unit
  | .constructed tag body elements => do
      writer.print (Value.head depth (.constructed tag body elements))
      writer.print "\n"
      listAll (depth + 1) elements
  | .text string => do
      writer.print (Value.head depth (.text string))
      writer.print (": " ++ Quoted.string (Value.text string).rendered ++ "\n")
  | value => do
      writer.print (value.head depth)
      if value.rendered = "" then writer.print "\n"
      else writer.print (": " ++ value.rendered ++ "\n")

def listAll (depth : Nat) : List Value → Steps m Failure Unit
  | [] => pure ()
  | value :: rest => do
      list depth value
      listAll depth rest

end

def emit : Subject → Steps m Failure Unit
  | .value .text value => writer.list 0 value
  | .value .json value => writer.print (Json.Builder.build value.members ++ "\n")
  | .text text => writer.write (Utf8.ofString text)

def output [DecidableEq Kind] (kind : Failure → Kind) (brokenPipe : Kind) (subject : Subject) :
    Steps m Failure Unit :=
  Steps.ignoringBrokenPipe kind brokenPipe do
    writer.emit subject
    writer.flush

end Writer

end Asn1
