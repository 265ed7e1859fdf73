import Asn1.Proofs.Hex
import Asn1.Proofs.ObjectId
import Asn1.Proofs.Unicode.Utf8
import Asn1.Surroundings

/-!
# What commands come to

A command comes to output, or to an error without any. Which of them it is depends on its arguments
and on the data that a dump reads, and the octets that are to be decoded are unique.
-/

namespace Asn1

namespace FileTree

variable {tree : FileTree} {directory : String} {input : Except FileError Octets}
  {config : Config}

/-- The data that a dump looks at. -/
def dumped (tree : FileTree) (directory : String) (input : Except FileError Octets) :
    Option String → Except FileError Octets
  | none => input
  | some path => tree.read (Path.join directory path)

/-- The octets to decode: the data can be read and is in its form. -/
def IsDumped (tree : FileTree) (directory : String) (input : Except FileError Octets)
    (config : Config) (path? : Option String) (octets : Octets) : Prop :=
  ∃ data, tree.dumped directory input path? = .ok data ∧
    config.inputFormat.convert data = .ok octets

theorem IsDumped.unique {path? : Option String} {octets others : Octets}
    (first : tree.IsDumped directory input config path? octets)
    (second : tree.IsDumped directory input config path? others) : octets = others := by
  obtain ⟨data, isData, converted⟩ := first
  obtain ⟨content, isContent, converted'⟩ := second
  cases isData.symm.trans isContent
  cases converted.symm.trans converted'
  rfl

end FileTree

namespace Command

/-- What a command comes to, with the files and the standard input that it is given. -/
def outcome (tree : FileTree) (directory : String) (input : Except FileError Octets)
    (config : Config) : Command → Outcome
  | showConfig => .done config.document
  | dump path? =>
      config.dumpRead (path?.map (Path.join directory)) (tree.dumped directory input path?)
  | encodeId text => Asn1.encodeId text
  | decodeId digits => Asn1.decodeId digits

variable {tree : FileTree} {directory : String} {input : Except FileError Octets}
  {config : Config}

/-- What a run comes to that has its configuration. Without a command there is nothing to do. -/
def outcome? (tree : FileTree) (directory : String) (input : Except FileError Octets)
    (config : Config) (command? : Option Command) : Outcome :=
  command?.elim (.stopped .failure .commandMissing) (outcome tree directory input config)

theorem perform_run (around : Surroundings) (directory : String) (config : Config)
    (arguments : Arguments) (before : Effects) :
    ((around.host directory).perform config
        (arguments.located? (around.host directory).directory)).run before =
      (outcome? before.tree directory around.input config arguments.command?, before) := by
  unfold Arguments.located? outcome?
  cases arguments.command? with
  | none => rfl
  | some command =>
      cases command with
      | dump path? => cases path? <;> rfl
      | _ => rfl

end Command

end Asn1
