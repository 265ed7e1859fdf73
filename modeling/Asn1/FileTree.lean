import Asn1.Decimal
import Asn1.Path
import Asn1.Unicode.Utf8

/-!
A tree of files, and what it means to read or to extend a file in it.
-/

namespace Asn1

inductive FileError where
  /-- The system refuses, with its description and number of the reason. -/
  | system (description : String) (code : Nat)
  /-- The path has a character with code point zero. -/
  | nulInPath
  /-- The content is not text. -/
  | notUtf8
  deriving DecidableEq, Repr

namespace FileError

def notFound : FileError := system "No such file or directory" 2

def notDirectory : FileError := system "Not a directory" 20

def isDirectory : FileError := system "Is a directory" 21

def nameTooLong : FileError := system "File name too long" 36

def noSpace : FileError := system "No space left on device" 28

def brokenPipe : FileError := system "Broken pipe" 32

def message : FileError → String
  | system description code => description ++ " (os error " ++ Decimal.text code ++ ")"
  | nulInPath => "file name contained an unexpected NUL byte"
  | notUtf8 => "stream did not contain valid UTF-8"

end FileError

/-- A place in a tree: the names on the way from the root. -/
abbrev Place := List (List Char)

/-- Files and where they are. Directories are there because of the files in them. -/
structure FileTree where
  /-- The directory in which paths start that are not absolute. -/
  origin : Place
  files : List (Place × Octets)

namespace FileTree

def contents? (tree : FileTree) (place : Place) : Option Octets := tree.files.lookup place

def isDirectory (tree : FileTree) (place : Place) : Bool :=
  place <+: tree.origin ∨ tree.files.any fun file => place <+: file.1 ∧ place ≠ file.1

def hasPlace (tree : FileTree) (place : Place) : Bool :=
  tree.isDirectory place || (tree.contents? place).isSome

def nameLimit : Nat := 255

def pathLimit : Nat := 4095

/-- Whether a part of a path is too long to be a name. -/
def isTooLong (name : List Char) : Bool := nameLimit < (Utf8.encode name).length

def walk (tree : FileTree) (place : Place) : List (List Char) → Except FileError Place
  | [] => .ok place
  | name :: rest =>
      if !tree.isDirectory place then .error .notDirectory
      else if name = [] ∨ name = ['.'] then tree.walk place rest
      else if name = ['.', '.'] then tree.walk place.dropLast rest
      else if isTooLong name then .error .nameTooLong
      else if tree.hasPlace (place ++ [name]) then tree.walk (place ++ [name]) rest
      else .error .notFound

def start (tree : FileTree) (path : String) : Except FileError Place :=
  if '\x00' ∈ path.toList then .error .nulInPath
  else if path = "" then .error .notFound
  else if pathLimit < path.utf8ByteSize then .error .nameTooLong
  else .ok (if Path.isAbsolute path then [] else tree.origin)

def read (tree : FileTree) (path : String) : Except FileError Octets := do
  let place ← tree.walk (← tree.start path) (Path.parts path.toList)
  match tree.contents? place with
  | some contents => .ok contents
  | none => .error .isDirectory

/-- The place of a file that is to be extended. The file need not be there yet. -/
def filePlace (tree : FileTree) (path : String) : Except FileError Place := do
  let parts := Path.parts path.toList
  let way := (parts.reverse.dropWhile (· = [])).reverse
  let directory ← tree.walk (← tree.start path) way.dropLast
  let name := way.getLastD []
  if !tree.isDirectory directory then throw .notDirectory
  else if name ∈ [[], ['.'], ['.', '.']] ∨ parts ≠ way then throw .isDirectory
  else if isTooLong name then throw .nameTooLong
  else if tree.isDirectory (directory ++ [name]) then throw .isDirectory
  else return directory ++ [name]

/-- Replaces what is in the file at a place, or makes a file there. -/
def put (tree : FileTree) (place : Place) (contents : Octets) : FileTree :=
  { tree with files := (place, contents) :: tree.files.filter fun file => file.1 ≠ place }

def touch (tree : FileTree) (place : Place) : FileTree :=
  if (tree.contents? place).isSome then tree else tree.put place []

end FileTree

end Asn1
