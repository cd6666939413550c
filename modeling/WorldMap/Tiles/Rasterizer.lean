import WorldMap.Geometry.Tile
import WorldMap.Image.Pixmap
import WorldMap.World.Source
/-!
# Rasterizing a tile

A tile is drawn on a surface of its own, filled with the background, by the visible layers one after
the other. The first layer that fails ends the tile; layers that are hidden take no part, whatever
they would do.
-/

namespace WorldMap

structure LayerError where
  message : String
  deriving DecidableEq, Repr

inductive TileError
  | source (e : SourceError)
  | layer (name : String) (e : LayerError)
  | allocation (width height : UInt32)
  | brokeOff (message : String)
  | lost
  deriving DecidableEq, Repr

namespace TileError

def text : TileError → String
  | source e => s!"data source error: {e.text}"
  | layer name e => s!"layer '{name}' failed: {e.message}"
  | allocation w h => s!"cannot allocate a {w}×{h} tile buffer"
  | brokeOff m => s!"tile computation panicked: {m}"
  | lost => "tile result was lost"

def cause : TileError → Option String
  | source e => some e.text
  | layer _ e => some e.message
  | _ => none

end TileError

structure Layer (σ : Type) where
  name : String
  visible : Bool
  draw : σ → Pixmap → Attempt LayerError Pixmap

namespace Layer

variable {σ : Type}

/-- The layer's own drawing, its error under its name. -/
def apply (l : Layer σ) (sample : σ) (canvas : Pixmap) : Attempt TileError Pixmap :=
  (l.draw sample canvas).mapFailure (TileError.layer l.name)

end Layer

structure Rasterizer (σ : Type) where
  layers : List (Layer σ)
  layout : Layout
  background : Color

namespace Rasterizer

variable {σ : Type}

/-- Draws the visible ones among `layers` on `canvas`, in order. -/
def drawLayers (layers : List (Layer σ)) (sample : σ) (canvas : Pixmap) : Attempt TileError Pixmap :=
  (layers.filter (·.visible)).foldlM (fun canvas l => l.apply sample canvas) canvas

def rasterize (r : Rasterizer σ) (sample : σ) : Attempt TileError Pixmap :=
  match Pixmap.blank? r.layout.width.toNat r.layout.depth.toNat with
  | none => .error (.error (.allocation r.layout.width r.layout.depth))
  | some surface => drawLayers r.layers sample (surface.fill r.background)

def setVisible (r : Rasterizer σ) (i : Nat) (visible : Bool) : Rasterizer σ :=
  { r with layers := r.layers.modify i fun l => { l with visible } }

end Rasterizer

end WorldMap
