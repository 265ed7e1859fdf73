import Asn1.CommandLine.Switch

/-!
Splitting arguments into options with their values, operands and a subcommand. What the options
mean is looked at afterwards, and in order. So a reading ends with the first argument that is
refused, and has all that was complete before.
-/

namespace Asn1.CommandLine

/-- What may be given at a place on the command line. -/
structure Scope where
  switches : List Switch
  subcommands : List String
  takesOperand : Bool

inductive Part where
  | switch (switch : Switch) (value? : Option String)
  | operand (text : String)
  deriving DecidableEq, Repr

inductive Ending where
  | complete
  /-- A subcommand, and the arguments that are left for it. -/
  | subcommand (name : String) (rest : List String)
  | refused (error : UsageError)
  deriving DecidableEq, Repr

structure Reading where
  parts : List Part
  /-- The last option or operand. It is looked at last, even after a subcommand. -/
  pending? : Option Part
  ending : Ending

namespace Reading

def refuse (parts : List Part) (error : UsageError) : Reading := ⟨parts, none, .refused error⟩

def behind (reading : Reading) (parts : List Part) : Reading :=
  { reading with parts := parts ++ reading.parts }

end Reading

/-- What an argument with dashes in front is found to be. -/
inductive Dashed where
  /-- Options with all they need. -/
  | complete (parts : List Part)
  /-- Options, the last of which has its value in the next argument. -/
  | awaiting (parts : List Part) (switch : Switch)
  /-- Options, and then one that is refused. -/
  | refused (parts : List Part) (error : UsageError)
  deriving DecidableEq, Repr

namespace Dashed

def behind (part : Part) : Dashed → Dashed
  | complete parts => complete (part :: parts)
  | awaiting parts switch => awaiting (part :: parts) switch
  | refused parts error => refused (part :: parts) error

/-- Reads an option behind two dashes. A value may follow an equals sign. -/
def ofName (switches : List Switch) (chars : List Char) : Dashed :=
  let name := String.ofList (chars.takeWhile (· ≠ '='))
  let value? := match chars.dropWhile (· ≠ '=') with
    | [] => none
    | _ :: value => some (String.ofList value)
  match switches.find? fun switch => switch.name = name, value? with
  | none, _ => refused [] .unknownArgument
  | some switch, value? =>
      if switch.takesValue then
        match value? with
        | some value => complete [.switch switch (some value)]
        | none => awaiting [] switch
      else
        match value? with
        | some _ => refused [] .tooManyValues
        | none => complete [.switch switch none]

/-- Reads options behind one dash. A value may follow right after its letter, or an equals sign. -/
def ofLetters (switches : List Switch) : List Char → Dashed
  | [] => complete []
  | letter :: rest =>
      match switches.find? fun switch => switch.letter? = some letter with
      | none => refused [] .unknownArgument
      | some switch =>
          if switch.takesValue then
            match rest with
            | [] => awaiting [] switch
            | '=' :: value => complete [.switch switch (some (String.ofList value))]
            | value => complete [.switch switch (some (String.ofList value))]
          else
            (ofLetters switches rest).behind (.switch switch none)

/-- Reads an argument with dashes in front. A dash on its own is something else. -/
def read? (switches : List Switch) (argument : String) : Option Dashed :=
  match argument.toList with
  | '-' :: '-' :: chars => some (ofName switches chars)
  | '-' :: first :: chars => some (ofLetters switches (first :: chars))
  | _ => none

end Dashed

structure Progress where
  /-- The latest option or operand. -/
  pending? : Option Part := none
  /-- Whether all that follows are operands. -/
  operandsOnly : Bool := false
  hasOperand : Bool := false

namespace Progress

def awaiting? (progress : Progress) : Option Switch :=
  match progress.pending? with
  | some (.switch switch none) => some switch
  | _ => none

/-- The parts that are complete once something follows. -/
def settled (progress : Progress) : List Part := progress.pending?.toList

end Progress

namespace Scope

def surplus (scope : Scope) (progress : Progress) (argument : String) : UsageError :=
  if scope.subcommands = [] then .unknownArgument
  else if progress.operandsOnly ∧ argument ∈ scope.subcommands then .unknownArgument
  else .invalidSubcommand

inductive Role where
  | operand
  | subcommand
  /-- It says that all that follows are operands. -/
  | divider
  | options (options : Dashed)
  /-- It is the value of an option. -/
  | value (switch : Switch)
  deriving DecidableEq, Repr

/-- What an argument is taken for. Only an argument that cannot be read as options is a value. -/
def role (scope : Scope) (progress : Progress) (argument : String) : Role :=
  if progress.operandsOnly then .operand
  else if progress.awaiting? = none ∧ argument ∈ scope.subcommands then .subcommand
  else if argument = "--" then .divider
  else
    match Dashed.read? scope.switches argument, progress.awaiting? with
    | some options, _ => .options options
    | none, some switch => .value switch
    | none, none => .operand

def read (scope : Scope) (progress : Progress) : List String → Reading
  | [] => ⟨[], progress.pending?, .complete⟩
  | argument :: rest =>
      match scope.role progress argument with
      | .subcommand => ⟨[], progress.pending?, .subcommand argument rest⟩
      | .divider => scope.read { progress with operandsOnly := true } rest
      | .value switch =>
          scope.read { progress with pending? := some (.switch switch (some argument)) } rest
      | .operand =>
          if scope.takesOperand ∧ ¬progress.hasOperand then
            (scope.read { progress with pending? := some (.operand argument), hasOperand := true }
              rest).behind progress.settled
          else
            .refuse [] (scope.surplus progress argument)
      | .options (.complete parts) =>
          (scope.read { progress with pending? := none } rest).behind (progress.settled ++ parts)
      | .options (.awaiting parts switch) =>
          (scope.read { progress with pending? := some (.switch switch none) } rest).behind
            (progress.settled ++ parts)
      | .options (.refused parts error) =>
          .refuse (if parts = [] then [] else progress.settled ++ parts) error

end Scope

end Asn1.CommandLine
