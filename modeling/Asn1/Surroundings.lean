import Asn1.Program

/-!
Runs on a tree of files, with some standard input, and with a standard output and files that may
stop taking octets.
-/

namespace Asn1

def WriteError.fileError : WriteError → FileError
  | brokenPipe => .brokenPipe
  | other => .noSpace

/-- A sink as a writer on targets that have what was received somewhere. -/
def Sink.writerAt {Target : Type} (sink : Sink) (received : Target → Octets)
    (put : Octets → Target → Target) : Writer (StateM Target) FileError where
  write octets := ExceptT.mk fun target =>
    let outcome := { sink with received := received target }.write octets
    (outcome.1.mapError WriteError.fileError, put outcome.2.received target)
  flush := ExceptT.mk fun target => (sink.flush.1.mapError WriteError.fileError, target)
  cut := Writer.whole
  flatten_cut := Writer.flatten_whole

/-- What a run finds besides the files. -/
structure Surroundings where
  /-- Standard input. -/
  input : Except FileError Octets := .ok []
  time : String := ""
  /-- How standard output takes octets. -/
  output : Sink := {}
  /-- How many octets a file takes in all, where that is limited. -/
  limit? : Place → Option Nat := fun _ => none

/-- What there is after some steps of a run. -/
structure Effects where
  tree : FileTree
  output : Octets := []
  /-- What is shown besides the output. -/
  shown : List Notice := []

/-- What a run leaves behind. -/
structure Report extends Effects where
  status : ExitStatus

namespace Surroundings

/-- The file at a place, as far as it takes more octets. -/
def file (around : Surroundings) (place : Place) : Writer (StateM Effects) FileError :=
  Sink.writerAt { limit? := around.limit? place }
    (fun effects => (effects.tree.contents? place).getD [])
    (fun octets effects => { effects with tree := effects.tree.put place octets })

def openLog (around : Surroundings) (path : String) (effects : Effects) :
    Except FileError (Writer (StateM Effects) FileError) × Effects :=
  match effects.tree.filePlace path with
  | .ok place => (.ok (around.file place), { effects with tree := effects.tree.touch place })
  | .error error => (.error error, effects)

def standardOutput (around : Surroundings) : Writer (StateM Effects) FileError :=
  around.output.writerAt Effects.output fun octets effects => { effects with output := octets }

def host (around : Surroundings) (directory : String) : Host (StateM Effects) where
  directory
  readFile path := ExceptT.mk do return (← get).tree.read path
  readInput := ExceptT.mk do return around.input
  openLog path := ExceptT.mk (around.openLog path)
  time := return around.time
  notify notice := modify fun effects => { effects with shown := effects.shown ++ [notice] }
  output := around.standardOutput

end Surroundings

/-- What a run leaves behind on a tree of files. -/
def FileTree.report (tree : FileTree) (directory : String) (around : Surroundings)
    (arguments : Arguments) : Report :=
  let ended := ((around.host directory).run arguments).run { tree }
  { ended.2 with status := ended.1 }

end Asn1
