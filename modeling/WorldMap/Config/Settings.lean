import WorldMap.Config.ColorText
import WorldMap.Config.Ini
import WorldMap.Geometry.Layout
import WorldMap.Tiles.Compositor
/-!
# Settings

What can be set about the rendering of previews, with the values that hold where nothing is set. The
`[preview]` section of a section file sets any of eight keys. They are looked at in a fixed order,
and the first one with a value that cannot be used is the one that is reported.
-/

namespace WorldMap

/-- `threads` is the number of workers, if it is fixed; `pollMs` is how long a collector waits before
it looks at its tokens again. -/
structure Settings where
  threads : Option UInt64
  layout : Layout
  tileBackground : Color
  canvasBackground : Color
  axisColor : Color
  pollMs : UInt64
  deriving DecidableEq, Repr

namespace Settings

def standard : Settings where
  threads := none
  layout := Layout.standard
  tileBackground := Color.black
  canvasBackground := Color.transparent
  axisColor := Compositor.axisGray
  pollMs := 25

instance : Inhabited Settings := ⟨standard⟩

def withThreads (s : Settings) (n : UInt64) : Settings :=
  { s with threads := some (if n = 0 then 1 else n) }

/-- The number of workers, where `available` is how many the machine offers. -/
def workers (s : Settings) (available : Nat) : Nat := (s.threads.map (·.toNat)).getD available

/-- The keys of the section, in the order in which they are looked at. -/
inductive Key
  | threads
  | tileWidth
  | tileDepth
  | tileHeight
  | tileBackground
  | canvasBackground
  | axisColor
  | pollInterval
  deriving DecidableEq, Repr

namespace Key

def name : Key → String
  | threads => "threads"
  | tileWidth => "tile_width"
  | tileDepth => "tile_depth"
  | tileHeight => "tile_height"
  | tileBackground => "tile_background"
  | canvasBackground => "canvas_background"
  | axisColor => "axis_color"
  | pollInterval => "poll_interval_ms"

end Key

inductive Reason
  | notANumber
  | belowOne
  | notPositive
  | notAColor
  deriving DecidableEq, Repr

namespace Reason

def text : Reason → String
  | notANumber => "not a number"
  | belowOne => "must be at least 1"
  | notPositive => "must be greater than 0"
  | notAColor => "expected #RRGGBB or #RRGGBBAA"

end Reason

structure InvalidValue where
  key : Key
  value : String
  reason : Reason
  deriving DecidableEq, Repr

def sectionName : String := "preview"

namespace InvalidValue

def text (e : InvalidValue) : String :=
  s!"Invalid configuration: {sectionName}.{e.key.name} = '{e.value}' - {e.reason.text}"

end InvalidValue

/-- The positive number that a key has, if it is there. Zero is refused for a reason of its own. -/
def positiveAt (s : Ini.Section) (key : Key) (limit : Nat) (zero : Reason) :
    Except InvalidValue (Option Nat) :=
  match s.get? key.name with
  | none => .ok none
  | some value =>
    match readUnsigned 10 limit (trim value.toList) with
    | .error _ => .error ⟨key, value, .notANumber⟩
    | .ok 0 => .error ⟨key, "0", zero⟩
    | .ok n => .ok (some n)

def colorAt (s : Ini.Section) (key : Key) : Except InvalidValue (Option Color) :=
  match s.get? key.name with
  | none => .ok none
  | some value =>
    match Color.read value.toList with
    | none => .error ⟨key, value, .notAColor⟩
    | some c => .ok (some c)

def ofSection (s : Ini.Section) : Except InvalidValue Settings := do
  let threads ← positiveAt s .threads maxWord64 .belowOne
  let width ← positiveAt s .tileWidth maxWord32 .notPositive
  let depth ← positiveAt s .tileDepth maxWord32 .notPositive
  let height ← positiveAt s .tileHeight maxWord32 .notPositive
  let tileBackground ← colorAt s .tileBackground
  let canvasBackground ← colorAt s .canvasBackground
  let axisColor ← colorAt s .axisColor
  let pollMs ← positiveAt s .pollInterval maxWord64 .belowOne
  let size (n : Option Nat) (usual : UInt32) : UInt32 := (n.map UInt32.ofNat).getD usual
  return {
    threads := (threads.map UInt64.ofNat).or standard.threads
    layout :=
      (Layout.ofFootprint (size width standard.layout.width) (size depth standard.layout.depth)).withHeight
        (size height standard.layout.height)
    tileBackground := tileBackground.getD standard.tileBackground
    canvasBackground := canvasBackground.getD standard.canvasBackground
    axisColor := axisColor.getD standard.axisColor
    pollMs := (pollMs.map UInt64.ofNat).getD standard.pollMs }

/-- The settings that a document makes, the standard ones if it has no section for them. -/
def ofDocument (d : Ini.Document) : Except InvalidValue Settings :=
  match Ini.Document.find? d sectionName with
  | none => .ok standard
  | some s => ofSection s

end Settings

inductive FileEntry
  | missing
  | directory
  | bytes (content : ByteArray)

inductive ReadError
  | directory
  | notText
  | unreadable (e : Ini.ParseError)

namespace ReadError

def text : ReadError → String
  | directory => "Is a directory (os error 21)"
  | notText => "stream did not contain valid UTF-8"
  | unreadable e => e.text

end ReadError

inductive SettingsError
  | read (e : ReadError)
  | parse (e : Ini.ParseError)
  | invalid (e : Settings.InvalidValue)

namespace SettingsError

def text : SettingsError → String
  | read e => s!"Failed to read config file: {e.text}"
  | parse e => s!"Failed to parse config: {e.text}"
  | invalid e => e.text

def cause : SettingsError → Option String
  | read e => some e.text
  | parse e => some e.text
  | invalid _ => none

end SettingsError

namespace Settings

def ofText (text : String) : Except SettingsError Settings :=
  match Ini.parse text with
  | .error e => .error (.parse e)
  | .ok d => (ofDocument d).mapError .invalid

def dropByteOrderMark : List Char → List Char
  | '\uFEFF' :: cs => cs
  | cs => cs

/-- The settings that a file makes, the standard ones if there is no file. -/
def load : FileEntry → Except SettingsError Settings
  | .missing => .ok standard
  | .directory => .error (.read .directory)
  | .bytes content =>
    match String.fromUTF8? content with
    | none => .error (.read .notText)
    | some text =>
      match Ini.parse (String.ofList (dropByteOrderMark text.toList)) with
      | .error e => .error (.read (.unreadable e))
      | .ok d => (ofDocument d).mapError .invalid

end Settings

end WorldMap
