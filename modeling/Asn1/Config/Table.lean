import Asn1.Config
import Asn1.Path
import Asn1.Toml.Value

/-!
Settings read from the table of a configuration file. Settings that the table does not have keep
their usual values.
-/

namespace Asn1.Config

inductive Defect where
  | notText (key : String)
  | notBoolean (key : String)
  /-- The text at a key is not allowed there, for a reason. -/
  | illegal (key reason : String)
  deriving DecidableEq, Repr

def Defect.message : Defect → String
  | notText key => "'" ++ key ++ "' expected to be a string."
  | notBoolean key => "'" ++ key ++ "' expected to be a boolean."
  | illegal key reason => "illegal value in '" ++ key ++ "': " ++ reason ++ "."

/-- The keys of the settings, in the order in which they are looked at. -/
def keys : List String :=
  ["mode", "validate-utf8", "teletex-as-latin1", "input-format", "output-format", "log-level",
    "log-file"]

def flagAt? (table : Toml.Table) (key : String) : Except Defect (Option Bool) :=
  match table.lookup key with
  | none => .ok none
  | some (.boolean flag) => .ok (some flag)
  | some _ => .error (.notBoolean key)

def textAt? (table : Toml.Table) (key : String) : Except Defect (Option String) :=
  match table.lookup key with
  | none => .ok none
  | some (.string text) => .ok (some text)
  | some _ => .error (.notText key)

def namedAt? {α : Type} (table : Toml.Table) (key : String) (ofName? : String → Option α)
    (reason : String → String) : Except Defect (Option α) := do
  match ← textAt? table key with
  | none => return none
  | some text =>
      match ofName? text with
      | some named => return some named
      | none => throw (.illegal key (reason text))

/-- Reads a configuration from a table. The path of the log file starts in a directory. -/
def ofTable (directory : String) (table : Toml.Table) : Except Defect Config := do
  let usual : Config := {}
  let mode? ← namedAt? table "mode" Mode.ofName? fun _ => Mode.invalidMessage
  let validateUtf8? ← flagAt? table "validate-utf8"
  let teletexAsLatin1? ← flagAt? table "teletex-as-latin1"
  let inputFormat? ←
    namedAt? table "input-format" InputFormat.ofName? InputFormat.invalidMessage
  let outputFormat? ←
    namedAt? table "output-format" OutputFormat.ofName? OutputFormat.invalidMessage
  let logLevel? ← namedAt? table "log-level" LogLevel.ofName? fun _ => LogLevel.invalidMessage
  let logFile? ← textAt? table "log-file"
  return {
    mode := mode?.getD usual.mode
    validateUtf8 := validateUtf8?.getD usual.validateUtf8
    teletexAsLatin1 := teletexAsLatin1?.getD usual.teletexAsLatin1
    inputFormat := inputFormat?.getD usual.inputFormat
    outputFormat := outputFormat?.getD usual.outputFormat
    logLevel := logLevel?.getD usual.logLevel
    logFile? := logFile?.map (Path.join directory) }

/-- The keys of a table that mean nothing, in ascending order. -/
def unknownKeys (table : Toml.Table) : List String :=
  (Toml.Table.keys table |>.filter fun key => key ∉ keys).mergeSort fun first second =>
    decide (first ≤ second)

end Asn1.Config
