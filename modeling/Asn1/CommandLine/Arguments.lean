import Asn1.CommandLine.Reading
import Asn1.InputFormat
import Asn1.Listing
import Asn1.LogLevel
import Asn1.Mode

/-!
The meaning of the command line: settings that replace those of the configuration, and a command.
-/

namespace Asn1

inductive Command where
  /-- Show the value that is encoded in a file, or in standard input. -/
  | dump (path? : Option String)
  /-- Show the octets that encode an object identifier. -/
  | encodeId (text : String)
  /-- Show the object identifier that digits encode. -/
  | decodeId (digits : String)
  | showConfig
  deriving DecidableEq, Repr

structure Arguments where
  configFile? : Option String := none
  mode? : Option Mode := none
  validateUtf8? : Option Bool := none
  teletexAsLatin1? : Option Bool := none
  inputFormat? : Option InputFormat := none
  outputFormat? : Option OutputFormat := none
  logLevel? : Option LogLevel := none
  /-- The log file, or a dash if messages are to be shown. -/
  logFile? : Option String := none
  command? : Option Command := none
  deriving DecidableEq, Repr

namespace CommandLine

/-- The options that were given, before it is known whether they go together. -/
structure Given where
  configFile? : Option String := none
  mode? : Option Mode := none
  inputFormat? : Option InputFormat := none
  outputFormat? : Option OutputFormat := none
  logFile? : Option String := none
  /-- The options without a value that may be given once. -/
  flags : List Switch := []
  verbose : Nat := 0
  quiet : Nat := 0
  deriving DecidableEq, Repr

/-- Reads the value of an option, which must not have one already. -/
def once {α : Type} (current? : Option α) (value? : Option String)
    (read : String → Except UsageError α) : Except UsageError (Option α) := do
  match value?, current? with
  | none, _ => throw .invalidValue
  | some _, some _ => throw .argumentConflict
  | some value, none => return some (← read value)

def named {α : Type} (ofName? : String → Option α) (value : String) : Except UsageError α :=
  match ofName? value with
  | some named => .ok named
  | none => .error .valueValidation

def path (value : String) : Except UsageError String :=
  if value = "" then .error .invalidValue else .ok value

namespace Given

def add (given : Given) : Part → Except UsageError Given
  | .operand _ => throw .unknownArgument
  | .switch switch value? =>
      match switch with
      | .config => return { given with configFile? := ← once given.configFile? value? path }
      | .mode => return { given with mode? := ← once given.mode? value? (named Mode.ofName?) }
      | .inputFormat => do
          let read := named InputFormat.ofName?
          return { given with inputFormat? := ← once given.inputFormat? value? read }
      | .outputFormat => do
          let read := named OutputFormat.ofName?
          return { given with outputFormat? := ← once given.outputFormat? value? read }
      | .logFile => return { given with logFile? := ← once given.logFile? value? .ok }
      | .verbose => return { given with verbose := given.verbose + 1 }
      | .quiet => return { given with quiet := given.quiet + 1 }
      | .help => throw .displayHelp
      | .version => throw .displayVersion
      | flag =>
          if flag ∈ given.flags then throw .argumentConflict
          else return { given with flags := flag :: given.flags }

def isContradictory (given : Given) : Bool :=
  (.validateUtf8 ∈ given.flags ∧ .noValidateUtf8 ∈ given.flags) ∨
    (.teletexAsLatin1 ∈ given.flags ∧ .noTeletexAsLatin1 ∈ given.flags) ∨
    (0 < given.verbose ∧ 0 < given.quiet)

def choice? (given : Given) (yes no : Switch) : Option Bool :=
  if yes ∈ given.flags then some true
  else if no ∈ given.flags then some false
  else none

def logLevel? (given : Given) : Option LogLevel :=
  match given.verbose, given.quiet with
  | 0, 0 => none
  | 0, 1 => some .error
  | 0, _ => some .off
  | 1, _ => some .info
  | _, _ => some .debug

def arguments (given : Given) (command? : Option Command) : Except UsageError Arguments :=
  if given.isContradictory then .error .argumentConflict
  else .ok {
    configFile? := given.configFile?
    mode? := given.mode?
    validateUtf8? := given.choice? .validateUtf8 .noValidateUtf8
    teletexAsLatin1? := given.choice? .teletexAsLatin1 .noTeletexAsLatin1
    inputFormat? := given.inputFormat?
    outputFormat? := given.outputFormat?
    logLevel? := given.logLevel?
    logFile? := given.logFile?
    command? }

end Given

def commandNames : List String := ["dump", "oid", "config", "help"]

def idCommandNames : List String := ["encode", "decode", "help"]

def globalScope : Scope :=
  { switches := [.config, .mode, .validateUtf8, .noValidateUtf8, .teletexAsLatin1,
      .noTeletexAsLatin1, .inputFormat, .outputFormat, .verbose, .quiet, .logFile, .help, .version]
    subcommands := commandNames
    takesOperand := false }

def idScope : Scope := { switches := [.help], subcommands := idCommandNames, takesOperand := false }

def commandScope (takesOperand : Bool) : Scope :=
  { switches := [.help], subcommands := [], takesOperand }

/-- Takes the operand of a command. The only option asks for help. -/
def operand (read : String → Except UsageError String) (current? : Option String) :
    Part → Except UsageError (Option String)
  | .switch _ _ => throw .displayHelp
  | .operand text => once current? (some text) read

def operand? (takesOperand : Bool) (read : String → Except UsageError String)
    (rest : List String) : Except UsageError (Option String) := do
  let reading := (commandScope takesOperand).read {} rest
  let operand? ← reading.parts.foldlM (operand read) none
  match reading.ending with
  | .refused error => throw error
  | _ => reading.pending?.toList.foldlM (operand read) operand?

def required (rest : List String) : Except UsageError String := do
  match ← operand? true .ok rest with
  | some text => return text
  | none => throw .missingRequiredArgument

def helpAbout (names : List String) : UsageError :=
  match names with
  | [] => .displayHelp
  | [name] => if name ∈ commandNames then .displayHelp else .invalidSubcommand
  | [first, second] =>
      if first = "oid" ∧ second ∈ idCommandNames then .displayHelp else .invalidSubcommand
  | _ => .invalidSubcommand

def idCommand (rest : List String) : Except UsageError Command := do
  let reading := idScope.read {} rest
  let _ ← reading.parts.foldlM (operand .ok) none
  match reading.ending with
  | .complete => throw .missingSubcommand
  | .refused error => throw error
  | .subcommand "encode" rest => return .encodeId (← required rest)
  | .subcommand "decode" rest => return .decodeId (← required rest)
  | .subcommand _ rest => throw (helpAbout ("oid" :: rest))

def command (name : String) (rest : List String) : Except UsageError Command := do
  match name with
  | "dump" => return .dump (← operand? true path rest)
  | "oid" => idCommand rest
  | "config" =>
      let _ ← operand? false .ok rest
      return .showConfig
  | _ => throw (helpAbout rest)

def parse (words : List String) : Except UsageError Arguments := do
  let reading := globalScope.read {} words
  let given ← reading.parts.foldlM Given.add {}
  let command? ← match reading.ending with
    | .complete => pure none
    | .refused error => throw error
    | .subcommand name rest => some <$> command name rest
  let given ← reading.pending?.toList.foldlM Given.add given
  given.arguments command?

end CommandLine

end Asn1
