import WorldMap.CommandLine.Command
/-!
# A folder

A folder has files but no folders in it. It is a host for the command that is a value, so that a run of
the command is a function from the files before it to the files after it. Nothing is known of the
folders above it but that they are there and that new files can be made in them.
-/

namespace WorldMap

/-- The files that were there, by their names, and those that have been written since, with what they
show. A file that was only made, or of which nothing is known, shows nothing. -/
structure Folder where
  files : List (String × ByteArray)
  images : List (String × Option Image)

inductive PathProblem
  | notFound
  | notAFolder
  | isAFolder
  | nameTooLong
  deriving DecidableEq, Repr

def PathProblem.text : PathProblem → String
  | notFound => "No such file or directory (os error 2)"
  | notAFolder => "Not a directory (os error 20)"
  | isAFolder => "Is a directory (os error 21)"
  | nameTooLong => "File name too long (os error 36)"

/-- Where a path leads: to a name in the folder, to a name in a folder above it, or to a folder. -/
inductive Place
  | here (name : String)
  | above
  | folder

namespace Folder

def maxName : Nat := 255

def maxPath : Nat := 4095

def hasFile (f : Folder) (name : List Char) : Bool := (f.files.lookup (String.ofList name)).isSome

/-- Walks along the pieces of a path, which starts in the folder or above it. The last name need not be
there. -/
def walk (f : Folder) (inside : Bool) : List (List Char) → Except PathProblem Place
  | [] => .ok .folder
  | ['.'] :: rest => f.walk inside rest
  | ['.', '.'] :: rest => f.walk false rest
  | name :: rest =>
    if maxName < (String.ofList name).utf8ByteSize then .error .nameTooLong
    else if rest = [] then .ok (if inside then .here (String.ofList name) else .above)
    else if inside && f.hasFile name then .error .notAFolder
    else .error .notFound

def find (f : Folder) (path : String) : Except PathProblem Place :=
  if maxPath < path.utf8ByteSize then .error .nameTooLong
  else f.walk (!isAbsolute path) (pathPieces path.toList)

def entry (f : Folder) (path : String) : FileEntry :=
  match f.find path with
  | .ok .folder => .directory
  | .ok (.here name) =>
    if endsInSlash path then .missing
    else match f.files.lookup name with
      | none => .missing
      | some content => .bytes content
  | _ => .missing

def target (f : Folder) (path : String) : Except PathProblem Place :=
  match f.find path with
  | .ok .folder => .error .isAFolder
  | .ok place => if endsInSlash path then .error .isAFolder else .ok place
  | .error p => .error p

/-- Makes a file at a path, and writes an image to it if the format takes the image. -/
def write (path : String) (format : ImageFormat) (image : Image) :
    StateM Folder (Except ImageError Unit) := do
  match (← get).target path with
  | .error p => return .error (.other p.text)
  | .ok place =>
    let problem := format.problem? image
    let shown := if problem.isSome then none else format.shown? image
    if let .here name := place then
      modify fun f => { f with images := f.images ++ [(name, shown)] }
    match problem with
    | some p => return .error (.format format p)
    | none => return .ok ()

def host (workers : Nat) : Host (StateM Folder) where
  workers
  read path := return (← get).entry path
  write := write

end Folder

end WorldMap
