import WorldMap.CommandLine.Command
/-! The command as a program: files are read and written where the arguments say. -/

namespace WorldMap

def systemText : IO.Error → String
  | .noFileOrDirectory _ code details => s!"{details} (os error {code})"
  | .inappropriateType _ code details => s!"{details} (os error {code})"
  | .permissionDenied _ code details => s!"{details} (os error {code})"
  | .resourceExhausted _ code details => s!"{details} (os error {code})"
  | e => toString e

def systemHost : Host IO where
  workers := 1
  read path := do
    try return .bytes (← IO.FS.readBinFile path)
    catch
      | .noFileOrDirectory .. => return .missing
      | .inappropriateType .. => return .directory
      | e => throw e
  write path format image := do
    try
      IO.FS.writeBinFile path ByteArray.empty
      if let some problem := format.problem? image then return .error (.format format problem)
      IO.FS.writeBinFile path (format.encode image)
      return .ok ()
    catch e => return .error (.other (systemText e))

end WorldMap

def main (arguments : List String) : IO UInt32 := do
  let outcome ← WorldMap.Command.run WorldMap.systemHost arguments
  IO.print outcome.output
  IO.eprint outcome.errors
  return outcome.exitCode.toUInt32
