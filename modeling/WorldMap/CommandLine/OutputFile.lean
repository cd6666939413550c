import WorldMap.CommandLine.Error
import WorldMap.CommandLine.Path
/-!
# The file that a preview goes to

The extension of the file's name says in which format the preview is written. It is looked at before
anything is done about the file.
-/

namespace WorldMap

namespace ImageFormat

def ofPath (path : String) : Except ImageError ImageFormat :=
  match pathExtension path with
  | none => .error .noExtension
  | some extension =>
    match ofExtension? extension with
    | none => .error (.unknownExtension extension)
    | some format => .ok format

end ImageFormat

end WorldMap
