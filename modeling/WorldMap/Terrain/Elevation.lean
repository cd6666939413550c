import WorldMap.Number.Single
import WorldMap.Terrain.HeightSample
import WorldMap.Tiles.Rasterizer
/-!
# Colors of heights

The elevation layer gives every column the color of its height: deeper water is darker, and land goes
from a beach over lowland and hills to bare rock and snow. It looks at no column but the one it colors.
-/

namespace WorldMap

/-- The color `t` of the way from one color to another. The ends are reached at zero and one. -/
def blend (a b : Color) (t : Float32) : Color :=
  let t := clampUnit t
  let channel (a b : UInt8) : UInt8 := nearestChannel (interpolate a.toFloat32 b.toFloat32 t)
  ⟨channel a.r b.r, channel a.g b.g, channel a.b b.b, 255⟩

namespace Elevation

/-- The least distance between sea and ground that is told from none. -/
def leastRange : Float32 := 1 / 8388608

def shallows : Color := ⟨64, 128, 224, 255⟩
def depths : Color := ⟨16, 32, 96, 255⟩
def beach : Color := ⟨216, 200, 144, 255⟩
def lowland : Color := ⟨72, 160, 64, 255⟩
def forest : Color := ⟨40, 110, 40, 255⟩
def hills : Color := ⟨120, 100, 70, 255⟩
def rock : Color := ⟨110, 110, 110, 255⟩
def scree : Color := ⟨180, 180, 180, 255⟩
def snow : Color := ⟨250, 250, 250, 255⟩

/-- The color of land whose height is `t` of the way from the sea to the top. -/
def landColor (t : Float32) : Color :=
  if t < 0.05 then beach
  else if t < 0.45 then blend lowland forest ((t - 0.05) / 0.4)
  else if t < 0.75 then blend hills rock ((t - 0.45) / 0.3)
  else blend scree snow ((t - 0.75) / 0.25)

def color (height seaLevel : Float32) : Color :=
  if height < seaLevel then
    blend shallows depths ((seaLevel - height) / atLeast leastRange seaLevel)
  else landColor ((height - seaLevel) / atLeast leastRange (1 - seaLevel))

/-- Every pixel that has a height gets the color of the height. -/
def shade (s : HeightSample) (canvas : Pixmap) : Pixmap :=
  canvas.paint 0 0 canvas.width canvas.height fun x y pixel =>
    match s.heights[y * canvas.width + x]? with
    | some h => (color h s.seaLevel).premultiply
    | none => pixel

end Elevation

def HeightSample.checkSize (s : HeightSample) (canvas : Pixmap) : Attempt LayerError Unit :=
  if canvas.width = s.width.toNat ∧ canvas.height = s.depth.toNat then .ok ()
  else .error (.error ⟨s!"sample is {s.width}×{s.depth} but canvas is {canvas.width}×{canvas.height}"⟩)

def elevationLayer : Layer HeightSample where
  name := "elevation"
  visible := true
  draw s canvas := do
    s.checkSize canvas
    return Elevation.shade s canvas

end WorldMap
