/-!
The options of the command line, and what may be wrong with arguments.
-/

namespace Asn1.CommandLine

inductive UsageError where
  /-- There is no such option, or an argument too many. -/
  | unknownArgument
  | invalidSubcommand
  | missingSubcommand
  | missingRequiredArgument
  /-- An option lacks its value, or a path is empty. -/
  | invalidValue
  /-- A value is not one of those allowed. -/
  | valueValidation
  /-- Options contradict each other, or one is given twice. -/
  | argumentConflict
  /-- An option without a value is given one. -/
  | tooManyValues
  | displayHelp
  | displayVersion
  deriving DecidableEq, Repr

inductive Switch where
  | config
  | mode
  | validateUtf8
  | noValidateUtf8
  | teletexAsLatin1
  | noTeletexAsLatin1
  | inputFormat
  | outputFormat
  | verbose
  | quiet
  | logFile
  | help
  | version
  deriving DecidableEq, Repr

namespace Switch

/-- The name of an option, which is written behind two dashes. -/
def name : Switch → String
  | config => "config"
  | mode => "mode"
  | validateUtf8 => "validate-utf8"
  | noValidateUtf8 => "no-validate-utf8"
  | teletexAsLatin1 => "teletex-as-latin1"
  | noTeletexAsLatin1 => "no-teletex-as-latin1"
  | inputFormat => "input-format"
  | outputFormat => "output-format"
  | verbose => "verbose"
  | quiet => "quiet"
  | logFile => "log-file"
  | help => "help"
  | version => "version"

/-- The letter of an option, which is written behind one dash. -/
def letter? : Switch → Option Char
  | config => some 'c'
  | mode => some 'm'
  | inputFormat => some 'i'
  | outputFormat => some 'o'
  | verbose => some 'v'
  | quiet => some 'q'
  | help => some 'h'
  | version => some 'V'
  | _ => none

def takesValue : Switch → Bool
  | config | mode | inputFormat | outputFormat | logFile => true
  | _ => false

end Switch

end Asn1.CommandLine
