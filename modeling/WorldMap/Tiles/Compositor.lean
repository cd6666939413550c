import WorldMap.Geometry.Viewport
import WorldMap.Image.Draw
import WorldMap.Tiles.Result
/-!
# Composing tiles into an output image

Every tile image is drawn where its tile lies in the world, seen through the viewport. Two guide
lines through the world origin are drawn last, the horizontal one first. The output is written once,
at the end, and in full.
-/

namespace WorldMap

structure Compositor where
  layout : Layout
  background : Color
  axisColor : Color

namespace Compositor

def axisGray : Color := ⟨128, 128, 128, 255⟩

/-- Draws one tile, if it has an image. The tile's place is cut down to 32 bits, and the far corner
of its image has to fit in them too. -/
def drawTile (c : Compositor) (v : Viewport) (canvas : Pixmap) (t : TileResult Pixmap) : Checked Pixmap :=
  match t.image with
  | none => .ok canvas
  | some image => do
    let x := (Int32.ofInt (t.tile.originX c.layout)).toInt
    let y := (Int32.ofInt (t.tile.originZ c.layout)).toInt
    let _ ← IntRange.signed32.check .rectangle (x + image.width)
    let _ ← IntRange.signed32.check .rectangle (y + image.height)
    return canvas.drawImage image x y v.offsetX.toInt v.offsetY.toInt v.scale

/-- Draws the row and the column of the world origin, as far as they lie on the canvas. -/
def drawAxes (c : Compositor) (v : Viewport) (canvas : Pixmap) : Checked Pixmap := do
  let (x, y) ← v.toOutput 0 0
  let canvas :=
    if 0 ≤ y ∧ y < canvas.height then canvas.coatRect 0 y canvas.width 1 c.axisColor
    else canvas
  return if 0 ≤ x ∧ x < canvas.width then canvas.coatRect x 0 1 canvas.height c.axisColor
    else canvas

/-- The picture that takes the place of `target`. A target for which there is no surface stays as
it is. -/
def composite (c : Compositor) (target : Image) (v : Viewport) (tiles : List (TileResult Pixmap)) :
    Checked Image :=
  match Pixmap.blank? target.width target.height with
  | none => .ok target
  | some surface => do
    let canvas ← tiles.foldlM (c.drawTile v) (surface.fill c.background)
    let canvas ← c.drawAxes v canvas
    return canvas.toImage

end Compositor

end WorldMap
