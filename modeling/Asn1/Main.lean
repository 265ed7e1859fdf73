import Asn1.Program
import Std.Time.Zoned

/-!
The command line tool itself: runs on the files of the system, and shows what comes of it.
-/

namespace Asn1

namespace CommandLine.UsageError

def description : UsageError → String
  | unknownArgument => "unexpected argument"
  | invalidSubcommand => "unrecognized command"
  | missingSubcommand => "a command on object identifiers is required"
  | missingRequiredArgument => "a required argument was not provided"
  | invalidValue => "a value is required"
  | valueValidation => "a value is not allowed"
  | argumentConflict => "an option cannot be used with another one, or multiple times"
  | tooManyValues => "an option that has no value was given one"
  | displayHelp => "help was asked for"
  | displayVersion => "the version was asked for"

end CommandLine.UsageError

def versionText : String := "asn1parse 0.1.0-dev"

def usageText : String :=
  "Usage: asn1parse [OPTIONS] [COMMAND]\n\n"
    ++ "Commands:\n"
    ++ "  dump [PATH]         Decode data and print its structure\n"
    ++ "  oid encode <OID>    Print the hex encoded octets of an object identifier\n"
    ++ "  oid decode <HEX>    Print the object identifier of hex encoded octets\n"
    ++ "  config              Print the configuration\n"
    ++ "  help                Print help\n\n"
    ++ "Options:\n"
    ++ "  -c, --config <PATH>           Read base configuration from this file\n"
    ++ "  -m, --mode <MODE>             Encoding rules to decode with, ber or der\n"
    ++ "      --[no-]validate-utf8      Check that UTF-8 strings are well-formed\n"
    ++ "      --[no-]teletex-as-latin1  Read teletex strings as ISO 8859-1\n"
    ++ "  -i, --input-format <FORMAT>   Format of the data, der, hex or pem\n"
    ++ "  -o, --output-format <FORMAT>  Format of the output, text or json\n"
    ++ "  -v, --verbose                 Log more, twice for even more\n"
    ++ "  -q, --quiet                   Log less, twice for nothing\n"
    ++ "      --log-file <PATH>         Log to this file, - for standard error\n"
    ++ "  -h, --help                    Print help\n"
    ++ "  -V, --version                 Print version\n"

/-- Why the system does not do what was asked of it. -/
def FileError.ofSystem : IO.Error → FileError
  | .noFileOrDirectory _ code details | .permissionDenied _ code details
  | .inappropriateType _ code details | .invalidArgument _ code details
  | .resourceExhausted _ code details | .alreadyExists _ code details
  | .noSuchThing _ code details | .interrupted _ code details
  | .resourceBusy code details | .resourceVanished code details
  | .hardwareFault code details | .illegalOperation code details
  | .unsatisfiedConstraints code details | .protocolError code details
  | .timeExpired code details | .unsupportedOperation code details
  | .otherError code details => system details code.toNat
  | error => system (toString error) 0

/-- Turns an action that may throw into a step that may fail. -/
def attempt {Result : Type} (action : IO Result) : Steps IO FileError Result :=
  ExceptT.mk do
    try
      return .ok (← action)
    catch error =>
      return .error (.ofSystem error)

def tryTo (action : IO Unit) : IO Unit := discard (attempt action).run

/-- Reads octets up to their end, behind those that were read already. -/
partial def readBehind (stream : IO.FS.Stream) (octets : ByteArray) : IO ByteArray := do
  let more ← stream.read 65536
  if more.isEmpty then return octets else readBehind stream (octets ++ more)

/-- The date and time of day, universal if it is not known what it is here. -/
def dateTime : IO Std.Time.PlainDateTime := do
  try
    Std.Time.PlainDateTime.now
  catch _ =>
    return .ofWallTime (.ofTimestamp (← Std.Time.Timestamp.now) .zero)

def timeStamp : IO String := do
  let now ← dateTime
  let pair (number : Int) : String := Decimal.padded 2 number.toNat
  return Decimal.padded 4 now.year.toInt.toNat ++ "-" ++ pair now.month.toInt ++ "-"
    ++ pair now.day.toInt ++ "T" ++ pair now.hour.toInt ++ ":" ++ pair now.minute.toInt ++ ":"
    ++ pair now.second.toInt

def showNotice (notice : Notice) : IO Unit := tryTo (IO.eprintln notice.line)

/-- A file that is extended, with each write passed on at once. -/
def fileWriter (file : IO.FS.Handle) : Writer IO FileError where
  write octets := attempt do
    file.write ⟨octets.toArray⟩
    file.flush
  flush := attempt file.flush
  cut := Writer.whole
  flatten_cut := Writer.flatten_whole

def outputWriter : Writer IO FileError where
  write octets := attempt do (← IO.getStdout).write ⟨octets.toArray⟩
  flush := attempt do (← IO.getStdout).flush
  cut := Writer.whole
  flatten_cut := Writer.flatten_whole

def systemHost (directory : String) : Host IO where
  directory
  readFile path := attempt do
    let file ← IO.FS.Handle.mk path .read
    return (← file.readBinToEnd).toList
  readInput := attempt do
    return (← readBehind (← IO.getStdin) ByteArray.empty).toList
  openLog path := attempt do
    return fileWriter (← IO.FS.Handle.mk path .append)
  time := timeStamp
  notify := showNotice
  output := outputWriter

/-- Shows why arguments are not carried out, and gives the number that the tool ends with. -/
def showUsage : CommandLine.UsageError → IO UInt32
  | .displayHelp => do
      tryTo (IO.print usageText)
      return 0
  | .displayVersion => do
      tryTo (IO.println versionText)
      return 0
  | error => do
      tryTo (IO.eprintln ("error: " ++ error.description ++ "\n\nSee asn1parse --help."))
      return 2

/-- Runs the tool on its arguments, and gives the number that it ends with. -/
def runTool (words : List String) : IO UInt32 := do
  match ← (attempt IO.currentDir).run with
  | .error error =>
      showNotice (.directoryUnknown error)
      return UInt32.ofNat ExitStatus.failure.code
  | .ok directory =>
      match CommandLine.parse words with
      | .error error => showUsage error
      | .ok arguments =>
          return UInt32.ofNat (← (systemHost directory.toString).run arguments).code

end Asn1

def main (words : List String) : IO UInt32 := Asn1.runTool words
