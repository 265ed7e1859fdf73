import Asn1.InputFormat
import Asn1.Listing
import Asn1.LogLevel
import Asn1.Mode
import Asn1.Toml.Quotation

/-!
The settings of the command line tool, and the configuration file that has them all.
-/

namespace Asn1

structure Config where
  mode : Mode := .der
  validateUtf8 : Bool := true
  teletexAsLatin1 : Bool := false
  inputFormat : InputFormat := .raw
  outputFormat : OutputFormat := .text
  logLevel : LogLevel := .warn
  /-- The file that messages are appended to. Without one they are shown. -/
  logFile? : Option String := none
  deriving DecidableEq, Repr

namespace Config

def options (config : Config) : Options :=
  { mode := config.mode
    validateUtf8 := config.validateUtf8
    teletexAsLatin1 := config.teletexAsLatin1 }

def textLine (key text : String) : String := key ++ " = " ++ Toml.quote text ++ "\n"

def flagLine (key : String) (flag : Bool) : String :=
  key ++ " = " ++ (if flag then "true" else "false") ++ "\n"

/-- The configuration file with these settings, the keys in ascending order. -/
def document (config : Config) : String :=
  textLine "input-format" config.inputFormat.name
    ++ (config.logFile?.map (textLine "log-file")).getD ""
    ++ textLine "log-level" config.logLevel.name
    ++ textLine "mode" config.mode.name
    ++ textLine "output-format" config.outputFormat.name
    ++ flagLine "teletex-as-latin1" config.teletexAsLatin1
    ++ flagLine "validate-utf8" config.validateUtf8

end Config

end Asn1
