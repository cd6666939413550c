/-!
# Paths

A path is the pieces between its slashes. A piece that is a dot alone stays where it is, and two dots
go up. For its name, a path ends in its last piece that goes anywhere.
-/

namespace WorldMap

/-- All pieces of a path but the empty ones. -/
def pathPieces (path : List Char) : List (List Char) :=
  (path.splitOn '/').filter (· ≠ [])

def isAbsolute (path : String) : Bool := path.startsWith "/"

def endsInSlash (path : String) : Bool := path.endsWith "/"

/-- The part of a name after its last dot. A dot in front of the name does not count. -/
def nameExtension (name : List Char) : Option (List Char) :=
  let after := (name.reverse.takeWhile (· ≠ '.')).reverse
  let before := name.length - after.length
  if before ≤ 1 then none else some after

def pathExtension (path : String) : Option String :=
  match ((pathPieces path.toList).filter (· ≠ ['.'])).getLast? with
  | none => none
  | some ['.', '.'] => none
  | some name => (nameExtension name).map String.ofList

end WorldMap
