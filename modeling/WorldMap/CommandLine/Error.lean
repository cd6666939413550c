import WorldMap.Config.Settings
import WorldMap.Image.Format
import WorldMap.Render.Error
import WorldMap.Text.Escape
/-!
# Failures of the command

Everything that can end the command without an image, with its message, its exit code, and the advice
that is printed below it.
-/

namespace WorldMap

inductive ImageError
  | unknownExtension (extension : String)
  | noExtension
  | format (f : ImageFormat) (p : FormatProblem)
  | other (text : String)
  deriving DecidableEq, Repr

namespace ImageError

def text : ImageError → String
  | unknownExtension e =>
    "The file extension `." ++ enclose '"' e.toList ++ "` was not recognized as an image format"
  | noExtension => "The image format could not be determined"
  | format f p => p.text f
  | other text => text

end ImageError

inductive ArgumentProblem
  | zeroThreads
  | zeroTileSize
  | other (text : String)
  deriving DecidableEq, Repr

namespace ArgumentProblem

def text : ArgumentProblem → String
  | zeroThreads => "--threads must be at least 1"
  | zeroTileSize => "--tile-size must be at least 1"
  | other text => text

end ArgumentProblem

inductive CommandError
  | logging (message : String)
  | signal (message : String)
  | settings (e : SettingsError)
  | arguments (p : ArgumentProblem)
  | render (e : RenderError)
  | imageWrite (path : String) (e : ImageError)

namespace CommandError

def text : CommandError → String
  | logging m => s!"Failed to initialize logging: {m}"
  | signal m => s!"Failed to set signal handler: {m}"
  | settings e => s!"Configuration error: {e.text}"
  | arguments p => s!"Invalid arguments: {p.text}"
  | render e =>
    if e.isCancellation then s!"Render aborted: {e.text}" else s!"Failed to render preview: {e.text}"
  | imageWrite path e => s!"Failed to write image '{path}': {e.text}"

def cause : CommandError → Option String
  | settings e => some e.text
  | render e => some e.text
  | imageWrite _ e => some e.text
  | _ => none

def stoppedCode : Nat := 130

def exitCode : CommandError → Nat
  | render e => if e.isCancellation then stoppedCode else 1
  | _ => 1

def advice : CommandError → List String
  | render (.invalidGeometry ..) =>
    ["", "Width, height and scale must all be at least 1, and",
      "width × scale and height × scale must fit in a 32-bit world."]
  | settings (.invalid _) =>
    ["", "Colors are written as #RRGGBB or #RRGGBBAA; sizes and",
      "thread counts must be positive integers."]
  | _ => []

def report (e : CommandError) : List String := s!"Error: {e.text}" :: e.advice

end CommandError

end WorldMap
