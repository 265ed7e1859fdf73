import Asn1.Config.Load
import Asn1.Sink
import Asn1.Writer

/-!
Carrying out the command line. What the surrounding system does is given by a host, so that a run
is the same with real files and with a tree of files. A run ends early when something fails.
-/

namespace Asn1

/-- Why a run ends without having done what it was asked. -/
inductive ExitError where
  | failure
  /-- What was to be decoded is not well-formed. -/
  | invalid
  deriving DecidableEq, Repr

inductive ExitStatus where
  | success
  | failure
  | invalid
  deriving DecidableEq, Repr

def ExitError.status : ExitError → ExitStatus
  | failure => .failure
  | invalid => .invalid

namespace ExitStatus

def ofResult {Result : Type} : Except ExitError Result → ExitStatus
  | .ok _ => success
  | .error error => error.status

def code : ExitStatus → Nat
  | success => 0
  | failure => 1
  | invalid => 2

end ExitStatus

/-- What a command comes to: what it logs, and then what it shows, if anything. -/
structure Outcome where
  notices : List Notice
  result : Except ExitError Subject

namespace Outcome

def done (text : String) : Outcome := ⟨[], .ok (.text text)⟩

def stopped (error : ExitError) (notice : Notice) : Outcome := ⟨[notice], .error error⟩

def status (outcome : Outcome) : ExitStatus := .ofResult outcome.result

def output (outcome : Outcome) : String :=
  match outcome.result with
  | .ok subject => String.join subject.pieces
  | .error _ => ""

end Outcome

namespace Config

def dump (config : Config) (path? : Option String) (data : Octets) : Outcome :=
  match config.inputFormat.convert data with
  | .error defect => .stopped .failure (.inputMalformed defect)
  | .ok octets =>
      let answer := (Parser.new octets config.options).parseAll
      let reported := answer.events.map Notice.decoder
      match answer.result with
      | .error error => ⟨reported ++ [.undecodable path? error], .error .invalid⟩
      | .ok value =>
          ⟨reported ++ [.decoded path? octets.length config.mode],
            .ok (.value config.outputFormat value)⟩

def dumpRead (config : Config) (path? : Option String) : Except FileError Octets → Outcome
  | .error error => .stopped .failure (.inputUnreadable path? error)
  | .ok data => config.dump path? data

end Config

def encodeId (text : String) : Outcome :=
  match ObjectId.ofDotted? text with
  | some id => .done (Hex.encode id.octets ++ "\n")
  | none => .stopped .failure (.idUnencodable text)

def decodeId (digits : String) : Outcome :=
  match Hex.decode (Utf8.ofString digits) with
  | .error defect => .stopped .failure (.digitsMalformed digits defect)
  | .ok octets =>
      let id : ObjectId := ⟨octets⟩
      if id.isValid then .done (id.dotted ++ "\n") else .stopped .invalid (.idInvalid digits)

/-- What the surrounding system does for a run. -/
structure Host (m : Type → Type) where
  /-- The directory in which the paths on the command line start. -/
  directory : String
  readFile : String → Steps m FileError Octets
  readInput : Steps m FileError Octets
  /-- Opens a file that is to be extended, and makes it if need be. -/
  openLog : String → Steps m FileError (Writer m FileError)
  /-- The date and time of day. -/
  time : m String
  /-- Shows a notice, which is no output. It does not matter if nobody can see it. -/
  notify : Notice → m Unit
  /-- Standard output. -/
  output : Writer m FileError

/-- Which messages are logged, and the log file. They are shown if there is none. -/
structure Logger (m : Type → Type) where
  limit : LogLevel
  file? : Option (String × Writer m FileError)

/-- Messages that are shown before there is a configuration. -/
def earlyLevel : LogLevel := .warn

def Logger.early {m : Type → Type} : Logger m := ⟨earlyLevel, none⟩

/-- The notices that are not too unimportant. -/
def LogLevel.admitted (limit : LogLevel) (notices : List Notice) : List Notice :=
  notices.filter fun notice => limit.admits notice.level

def FileError.kind : FileError → WriteError
  | system _ 32 => .brokenPipe
  | _ => .other

namespace Host

variable {m : Type → Type} [Monad m] (host : Host m)

/-- Logs a notice. The run ends if the log file cannot be extended. -/
def append (logger : Logger m) (notice : Notice) : Steps m ExitError Unit :=
  match logger.file? with
  | none => host.notify notice
  | some (path, file) => do
      let time ← host.time
      (file.print (notice.logLine time)).recover fun error => do
        host.notify (.logLost path error)
        throw .failure

/-- Logs the notices that are not too unimportant. -/
def log (logger : Logger m) (notices : List Notice) : Steps m ExitError Unit :=
  forM (logger.limit.admitted notices) (host.append logger)

/-- Ends the run with a notice if a step fails. -/
def expect {Result : Type} (steps : Steps m Notice Result) : Steps m ExitError Result :=
  steps.recover fun notice => do
    host.log .early [notice]
    throw .failure

def configure (arguments : Arguments) : Steps m Notice (Config × List Notice) :=
  ExceptT.mk do
    match arguments.configFile? with
    | none => return arguments.configure host.directory none
    | some path =>
        let path := Path.join host.directory path
        return arguments.configure host.directory (some (path, ← (host.readFile path).run))

def openLogger (config : Config) : Steps m Notice (Logger m) :=
  match config.logFile? with
  | none => return ⟨config.logLevel, none⟩
  | some path => do
      let file ← (host.openLog path).adapt (Notice.logUnusable path)
      return ⟨config.logLevel, some (path, file)⟩

def read : Option String → Steps m FileError Octets
  | none => host.readInput
  | some path => host.readFile path

def perform (config : Config) : Option Command → m Outcome
  | none => return .stopped .failure .commandMissing
  | some (.encodeId text) => return encodeId text
  | some (.decodeId digits) => return decodeId digits
  | some .showConfig => return .done config.document
  | some (.dump path?) => return config.dumpRead path? (← (host.read path?).run)

def conclude (logger : Logger m) (outcome : Outcome) : Steps m ExitError Unit := do
  host.log logger outcome.notices
  match outcome.result with
  | .error error => throw error
  | .ok subject =>
      (host.output.output FileError.kind .brokenPipe subject).recover fun error => do
        host.log logger [.outputUnwritten error]
        throw .failure

def carryOut (config : Config) (command? : Option Command) : Steps m ExitError Unit := do
  let logger ← host.expect (host.openLogger config)
  host.conclude logger (← host.perform config command?)

def steps (arguments : Arguments) : Steps m ExitError Unit := do
  let (config, notices) ← host.expect (host.configure arguments)
  host.log .early notices
  host.carryOut config (arguments.located? host.directory)

def run (arguments : Arguments) : m ExitStatus :=
  return .ofResult (← (host.steps arguments).run)

end Host

end Asn1
