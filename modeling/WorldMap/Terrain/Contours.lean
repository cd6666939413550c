import WorldMap.Terrain.Elevation
/-!
# Contour lines

The range of heights is divided into bands of equal height. A column is on a contour line if the column
to the right of it or the one below it, as far as the tile has them, is in another band, and the contour
layer darkens the pixels of such columns. Which those are depends on the sample alone.
-/

namespace WorldMap

/-- Contour lines between `levels` bands. -/
structure Contours where
  levels : UInt32
  deriving DecidableEq, Repr

namespace Contours

def ofLevels (levels : UInt32) : Contours := ⟨if levels = 0 then 1 else levels⟩

def standard : Contours := ofLevels 20

def band (c : Contours) (height : Float32) : UInt32 := (height * c.levels.toFloat32).toUInt32

def differs (c : Contours) (here : UInt32) (neighbour : Option Float32) : Bool :=
  neighbour.any (c.band · != here)

/-- Whether the column at `(x, z)` is on a contour line. -/
def isEdge (c : Contours) (s : HeightSample) (x z : UInt32) : Checked Bool := do
  match ← s.height x z with
  | none => return false
  | some h =>
    let east ← s.height (UInt32.ofNat (← IntRange.unsigned32.add x.toNat 1).toNat) z
    let south ← s.height x (UInt32.ofNat (← IntRange.unsigned32.add z.toNat 1).toNat)
    return c.differs (c.band h) east || c.differs (c.band h) south

/-- Which pixels of a canvas with the size of the sample are on contour lines, row by row. -/
def edges (c : Contours) (s : HeightSample) (count : Nat) : Checked (Array Bool) :=
  (Array.range count).mapM fun i => c.isEdge s (UInt32.ofNat i % s.width) (UInt32.ofNat i / s.width)

def keptBrightness : Float32 := 1 - 0.35

def darkenChannel (v : UInt8) : UInt8 := nearestChannel (v.toFloat32 * keptBrightness)

def darken (p : Pixel) : Pixel :=
  let c := p.straighten
  Color.premultiply ⟨darkenChannel c.r, darkenChannel c.g, darkenChannel c.b, c.a⟩

def drawEdges (edges : Array Bool) (canvas : Pixmap) : Pixmap :=
  canvas.paint 0 0 canvas.width canvas.height fun x y pixel =>
    if edges[y * canvas.width + x]?.getD false then darken pixel else pixel

def layer (c : Contours) (visible : Bool) : Layer HeightSample where
  name := "contours"
  visible
  draw s canvas := do
    s.checkSize canvas
    let edges ← Attempt.ofChecked (c.edges s (canvas.width * canvas.height))
    return drawEdges edges canvas

end Contours

end WorldMap
