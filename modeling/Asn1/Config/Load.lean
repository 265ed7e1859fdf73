import Asn1.CommandLine.Arguments
import Asn1.Notice
import Asn1.Toml.Document

/-!
The configuration of a run: what the command line says, otherwise what the configuration file says,
otherwise the usual settings.
-/

namespace Asn1

namespace Config

/-- Reads a configuration file, which gives a notice if some of its settings mean nothing. -/
def ofFile (path : String) (content : Octets) : Except Notice (Config × List Notice) :=
  match Utf8.decode content with
  | .error _ => .error (.configUnreadable path .notUtf8)
  | .ok document =>
      match Toml.parse? document with
      | none => .error (.configMalformed path)
      | some table =>
          match ofTable (Path.directory path) table with
          | .error defect => .error (.configDefective path defect)
          | .ok config =>
              let unknown := unknownKeys table
              .ok (config, if unknown = [] then [] else [.settingsUnknown path unknown])

/-- Replaces the log file. A dash means that messages are shown. -/
def replaceLogFile (directory : String) (current? : Option String) : Option String → Option String
  | none => current?
  | some path => if path = "-" then none else some (Path.join directory path)

/-- Replaces all settings that the command line gives. Its paths start in a directory. -/
def replace (config : Config) (directory : String) (arguments : Arguments) : Config where
  mode := arguments.mode?.getD config.mode
  validateUtf8 := arguments.validateUtf8?.getD config.validateUtf8
  teletexAsLatin1 := arguments.teletexAsLatin1?.getD config.teletexAsLatin1
  inputFormat := arguments.inputFormat?.getD config.inputFormat
  outputFormat := arguments.outputFormat?.getD config.outputFormat
  logLevel := arguments.logLevel?.getD config.logLevel
  logFile? := replaceLogFile directory config.logFile? arguments.logFile?

end Config

namespace Arguments

/-- The configuration that the command line asks for, given what reading its file gave. -/
def configure (arguments : Arguments) (directory : String)
    (file? : Option (String × Except FileError Octets)) : Except Notice (Config × List Notice) :=
  let base : Except Notice (Config × List Notice) :=
    match file? with
    | none => .ok ({}, [])
    | some (path, .error error) => .error (.configUnreadable path error)
    | some (path, .ok content) => Config.ofFile path content
  base.map fun (config, notices) => (config.replace directory arguments, notices)

def located? (arguments : Arguments) (directory : String) : Option Command :=
  arguments.command?.map fun
    | .dump path? => .dump (path?.map (Path.join directory))
    | command => command

end Arguments

end Asn1
