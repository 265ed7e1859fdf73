import Asn1.Config.Table
import Asn1.FileTree
import Asn1.Parser

/-!
The messages of the command line tool.
-/

namespace Asn1

inductive Notice where
  | directoryUnknown (error : FileError)
  | configUnreadable (path : String) (error : FileError)
  | configMalformed (path : String)
  /-- A setting in a configuration file is not allowed. -/
  | configDefective (path : String) (defect : Config.Defect)
  /-- Settings in a configuration file mean nothing. -/
  | settingsUnknown (path : String) (keys : List String)
  | logUnusable (path : String) (error : FileError)
  /-- Nothing more can be logged. -/
  | logLost (path : String) (error : FileError)
  /-- There is nothing to do. -/
  | commandMissing
  /-- Data was not read from a file, or from standard input. -/
  | inputUnreadable (path? : Option String) (error : FileError)
  /-- Data is not in its form. -/
  | inputMalformed (defect : InputFormat.Defect)
  | decoder (event : Parser.Event)
  | undecodable (path? : Option String) (error : DecodeError)
  | decoded (path? : Option String) (count : Nat) (mode : Mode)
  | idUnencodable (text : String)
  /-- A text is not made up of pairs of hexadecimal digits. -/
  | digitsMalformed (text : String) (defect : Hex.Defect)
  /-- Digits do not write an object identifier. -/
  | idInvalid (text : String)
  | outputUnwritten (error : FileError)
  deriving DecidableEq, Repr

namespace Notice

def level : Notice → LogLevel
  | settingsUnknown _ _ => .warn
  | decoded _ _ _ => .info
  | decoder (.rejected _ _ _) | decoder (.leftOver _) => .trace
  | decoder (.usedAfterFailure _) => .debug
  | _ => .error

def source (path? : Option String) : String := path?.getD "<stdin>"

def eventMessage : Parser.Event → String
  | .rejected mode offset error =>
      "Rejected " ++ mode.name ++ " value at offset " ++ Decimal.text offset ++ ": "
        ++ error.message ++ "."
  | .leftOver count => Decimal.text count ++ " octets left after value."
  | .usedAfterFailure error => "Parser used after failing with " ++ error.message ++ "."

def message : Notice → String
  | directoryUnknown error =>
      "Fatal: cannot get current directory (" ++ error.message ++ "). Aborting."
  | configUnreadable path error =>
      "Failed to read config file " ++ path ++ ": " ++ error.message
  | configMalformed path => "Failed to parse config file " ++ path ++ ": not a TOML document."
  | configDefective path defect => "Failed in config file " ++ path ++ ": " ++ defect.message
  | settingsUnknown path keys =>
      "Ignoring unknown settings in config file " ++ path ++ ": " ++ ", ".intercalate keys ++ "."
  | logUnusable path error => "Failed to open log file '" ++ path ++ "': " ++ error.message
  | logLost path error => "Logging to file " ++ path ++ " failed: " ++ error.message ++ ". Exiting."
  | commandMissing =>
      "Failed: a command is required.\n\nCommonly used commands are:\n"
        ++ "   dump      Decode data and print its structure\n"
        ++ "   oid       Convert object identifiers\n\n"
        ++ "See asn1parse -h for a usage summary."
  | inputUnreadable path? error =>
      "Failed to read " ++ path?.getD "standard input" ++ ": " ++ error.message
  | inputMalformed defect => defect.message
  | decoder event => eventMessage event
  | undecodable path? error => source path? ++ ": " ++ error.message ++ "."
  | decoded path? count mode =>
      source path? ++ ": decoded " ++ Decimal.text count ++ " octets as " ++ mode.name ++ "."
  | idUnencodable text =>
      "Cannot encode '" ++ text ++ "': " ++ ObjectId.invalidMessage ++ "."
  | digitsMalformed text defect => "Invalid hex data '" ++ text ++ "': " ++ defect.message ++ "."
  | idInvalid text => "'" ++ text ++ "' is not a valid object identifier."
  | outputUnwritten error => "Failed to write output: " ++ error.message

/-- A notice as it is shown. That nothing can be logged is not itself put as a log message. -/
def line : Notice → String
  | logLost path error => (logLost path error).message
  | notice => "[" ++ notice.level.name ++ "] " ++ notice.message

/-- A notice as it is put in a log file at some time. -/
def logLine (time : String) (notice : Notice) : String :=
  "[" ++ time ++ "] [" ++ notice.level.name ++ "] " ++ notice.message ++ "\n"

end Notice

end Asn1
