/-!
How important a message is, and which messages are logged.
-/

namespace Asn1

inductive LogLevel where
  | off
  | error
  | warn
  | info
  | debug
  | trace
  deriving DecidableEq, Repr

namespace LogLevel

def name : LogLevel → String
  | off => "OFF"
  | error => "ERROR"
  | warn => "WARN"
  | info => "INFO"
  | debug => "DEBUG"
  | trace => "TRACE"

def all : List LogLevel := [off, error, warn, info, debug, trace]

def upper (name : String) : String := String.ofList (name.toList.map Char.toUpper)

def ofName? (name : String) : Option LogLevel := all.find? fun level => level.name = upper name

def invalidMessage : String :=
  "attempted to convert a string that doesn't match an existing log level"

/-- The place of a level in the order of falling importance. -/
def rank : LogLevel → Nat
  | off => 0
  | error => 1
  | warn => 2
  | info => 3
  | debug => 4
  | trace => 5

def admits (limit level : LogLevel) : Bool := level.rank ≤ limit.rank

end LogLevel

end Asn1
