import WorldMap.CommandLine.Options
import WorldMap.CommandLine.OutputFile
import WorldMap.Render.Engine
import WorldMap.Terrain.Contours
import WorldMap.Terrain.Field
/-!
# The command

The command renders a preview of a terrain and writes it to a file. All that it needs of the world
around it is a `Host`, which reads the settings file and writes the image; what it prints, and the code
it exits with, is its `Outcome`.

The steps are taken in a fixed order, and the first that fails ends the command: the arguments are
read, the settings file is loaded, the arguments that override it are checked, the preview is rendered,
and the image is written.
-/

namespace WorldMap

/-- The world around the command, whose effects are in `m`. -/
structure Host (m : Type → Type) where
  workers : Nat
  read : String → m FileEntry
  write : String → ImageFormat → Image → m (Except ImageError Unit)

structure Outcome where
  exitCode : Nat
  output : String
  errors : String
  deriving DecidableEq, Repr

namespace Outcome

def help : String := "Render a top-down preview of a generated world

Usage: worldpreview [OPTIONS]

Options:
      --width <WIDTH>          Output width in pixels [default: 512]
      --height <HEIGHT>        Output height in pixels [default: 512]
      --scale <SCALE>          World pixels per output pixel [default: 1]
      --seed <SEED>            Terrain seed [default: 0]
      --threads <THREADS>      Worker threads (default: available parallelism)
      --config <CONFIG>        INI file with a [preview] section
      --tile-size <TILE_SIZE>  Square tile size in world pixels (overrides the config file)
      --hide-contours          Skip the contour line layer
      --quiet                  Don't show a progress bar
  -o, --output <OUTPUT>        Output PNG path [default: preview.png]
  -h, --help                   Print help
"

def usageCode : Nat := 2

def success (line : String) : Outcome := ⟨0, s!"{line}\n", ""⟩
def failure (e : CommandError) : Outcome := ⟨e.exitCode, "", String.join (e.report.map (s!"{·}\n"))⟩

def misuse : UsageError → Outcome
  | .helpWanted => ⟨0, help, ""⟩
  | e => ⟨usageCode, "", s!"error: {e.text}\n"⟩

end Outcome

namespace Options

/-- The settings of the file, where the arguments do not override them. -/
def override (o : Options) (s : Settings) : Except ArgumentProblem Settings := do
  let s ← match o.threads with
    | none => pure s
    | some n => if n = 0 then throw .zeroThreads else pure (s.withThreads n)
  match o.tileSize with
  | none => return s
  | some n =>
    if n = 0 then throw .zeroTileSize
    else return { s with layout := (Layout.ofFootprint n n).withHeight s.layout.height }

/-- The settings that hold, where `file` is what stands at the path of the settings file. -/
def settings (o : Options) (file : FileEntry) : Except CommandError Settings := do
  let s ← (Settings.load file).mapError .settings
  (o.override s).mapError .arguments

def layers (o : Options) : List (Layer HeightSample) :=
  [elevationLayer, Contours.standard.layer (!o.hideContours)]

def engine (o : Options) (s : Settings) (workers : Nat) : Engine HeightSample :=
  Engine.create (Terrain.ofSeed o.seed).source o.layers s workers

/-- The preview. Nobody is told of its progress, and nobody stops it. -/
def render (o : Options) (s : Settings) (workers : Nat) : Attempt RenderError Image :=
  let engine := o.engine s workers
  let session := engine.newSession
  let (token, tokens) := session.tokens.create
  (engine.render ⟨o.width, o.height, o.scale, none, token⟩ { session with tokens }).1

def report (o : Options) (i : Image) : String :=
  s!"Wrote {i.width}×{i.height} preview to {o.output}"

end Options

namespace Command

variable {m : Type → Type} [Monad m]

def save (h : Host m) (o : Options) (i : Image) : m (Except ImageError Unit) :=
  match ImageFormat.ofPath o.output with
  | .error e => return .error e
  | .ok format => h.write o.output format i

def runOptions (h : Host m) (o : Options) : m Outcome := do
  let file ← match o.config with
    | none => pure FileEntry.missing
    | some path => h.read path
  match o.settings file with
  | .error e => return .failure e
  | .ok settings =>
    match o.render settings h.workers with
    | .error (.error e) => return .failure (.render e)
    | .error (.broke b) => return ⟨101, "", s!"{b.text}\n"⟩
    | .ok image =>
      match ← save h o image with
      | .error e => return .failure (.imageWrite o.output e)
      | .ok () => return .success (o.report image)

def run (h : Host m) (arguments : List String) : m Outcome :=
  match Options.ofArguments arguments with
  | .error e => return .misuse e
  | .ok o => runOptions h o

end Command

end WorldMap
