import WorldMap.Geometry.Area
import WorldMap.Schedule.Collector
/-!
# Log events

What the library has to say while it works, as values. Each kind of event has a level, a message and
fields, which are numbers or texts.
-/

namespace WorldMap

inductive Level
  | debug
  | info
  | warn
  deriving DecidableEq, Repr

inductive Event
  | engineStarted (workers : Nat) (source : String) (layers : Nat) (layout : Layout)
  | rendering (area : Area) (tiles : Nat) (scale : UInt32)
  | submitted (tiles columns rows : Nat)
  | tileFailed (tile : Tile) (error : TileError)
  | renderStopped (reason : ScheduleError)
  | rendered (tiles failed : Nat)
  | engineClosed
  | listenerBrokeOff (completed total : Nat)
  | terrainReady (seed : UInt64) (lattice : Nat)

inductive FieldValue
  | number (n : Nat)
  | text (s : String)

namespace Event

def level : Event → Level
  | engineStarted .. | rendering .. | submitted .. | engineClosed | terrainReady .. => .debug
  | renderStopped _ | rendered .. => .info
  | tileFailed .. | listenerBrokeOff .. => .warn

def message : Event → String
  | engineStarted .. => "Started preview engine"
  | rendering .. => "Rendering preview"
  | submitted .. => "Submitted tile tasks"
  | tileFailed .. => "Could not rasterize tile"
  | renderStopped _ => "Preview render stopped"
  | rendered .. => "Rendered preview"
  | engineClosed => "Preview engine closed"
  | listenerBrokeOff .. => "Progress listener panicked"
  | terrainReady .. => "Terrain ready"

def fields : Event → List (String × FieldValue)
  | engineStarted workers source layers layout =>
    [("workers", .number workers), ("source", .text source), ("layers", .number layers),
      ("tile_width", .number layout.width.toNat), ("tile_depth", .number layout.depth.toNat)]
  | rendering area tiles scale =>
    [("area", .text area.text), ("tiles", .number tiles), ("scale", .number scale.toNat)]
  | submitted tiles columns rows =>
    [("tiles", .number tiles), ("columns", .number columns), ("rows", .number rows)]
  | tileFailed tile error => [("tile", .text tile.text), ("error", .text error.text)]
  | renderStopped reason => [("reason", .text reason.text)]
  | rendered tiles failed => [("tiles", .number tiles), ("failed", .number failed)]
  | engineClosed => []
  | listenerBrokeOff completed total =>
    [("completed", .number completed), ("total", .number total)]
  | terrainReady seed lattice => [("seed", .number seed.toNat), ("lattice", .number lattice)]

end Event

end WorldMap
