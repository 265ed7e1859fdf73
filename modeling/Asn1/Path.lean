/-!
Paths of files. They are texts with the names set apart by slashes.
-/

namespace Asn1.Path

def isAbsolute (path : String) : Bool := path.toList.head? = some '/'

/-- The path that is meant in a directory. Nothing stands in front of an absolute path, or of any
path if the directory has no name. -/
def join (directory path : String) : String :=
  if isAbsolute path then path
  else if directory = "" ∨ directory.toList.getLast? = some '/' then directory ++ path
  else directory ++ "/" ++ path

/-- Leaves out slashes and dots that mean nothing at the end of a path to a directory. The path is
read from its end, and the root stays. -/
def trim : List Char → List Char
  | ['/'] => ['/']
  | '/' :: rest => trim rest
  | '.' :: '/' :: rest => trim ('/' :: rest)
  | chars => chars

/-- The directory of a file, empty if the path has only one name. -/
def directory (path : String) : String :=
  String.ofList (trim (path.toList.reverse.dropWhile (· ≠ '/'))).reverse

def parts : List Char → List (List Char)
  | [] => [[]]
  | '/' :: rest => [] :: parts rest
  | char :: rest =>
      match parts rest with
      | [] => [[char]]
      | first :: others => (char :: first) :: others

end Asn1.Path
