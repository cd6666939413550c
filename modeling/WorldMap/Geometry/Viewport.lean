import WorldMap.Fault
import WorldMap.Geometry.Area
/-!
# Viewports

A viewport shows a part of the world in an output of `width` by `height` pixels. Output pixel
`(px, py)` stands for the `scale` by `scale` world points from `(px * scale + offsetX,
py * scale + offsetY)` on. `toWorld` and `toOutput` go both ways, in checked 64-bit arithmetic.
-/

namespace WorldMap

/-- The size of an output, the world points per pixel, and the world point of its first pixel. -/
structure Viewport where
  width : UInt32
  height : UInt32
  scale : UInt32
  offsetX : Int32
  offsetY : Int32
  deriving DecidableEq, Repr

namespace Viewport

/-- The first world coordinate of a centred side: half the visible extent before the origin. -/
def centredOffset (size scale : UInt32) : Checked Int32 := do
  let extent ← IntRange.signed64.mul size.toNat scale.toNat
  return Int32.ofInt (-(extent / 2))

/-- The view with the world origin in the middle; scale zero counts as one. -/
def centred (width height scale : UInt32) : Checked Viewport := do
  let scale := if scale = 0 then 1 else scale
  let offsetX ← centredOffset width scale
  let offsetY ← centredOffset height scale
  return ⟨width, height, scale, offsetX, offsetY⟩

/-- The world points that are visible. Its sides must fit in 32 bits. -/
def worldArea (v : Viewport) : Checked Area := do
  let width ← IntRange.unsigned32.mul v.width.toNat v.scale.toNat
  let height ← IntRange.unsigned32.mul v.height.toNat v.scale.toNat
  return ⟨v.offsetX, v.offsetY, UInt32.ofNat width.toNat, UInt32.ofNat height.toNat⟩

def worldCoordinate (p scale : UInt32) (offset : Int32) : Checked Int := do
  let steps ← IntRange.signed64.mul p.toNat scale.toNat
  IntRange.signed64.add steps offset.toInt

def toWorld (v : Viewport) (px py : UInt32) : Checked (Int × Int) := do
  let x ← worldCoordinate px v.scale v.offsetX
  let y ← worldCoordinate py v.scale v.offsetY
  return (x, y)

/-- The pixel of a side that shows a world coordinate, which may lie off the output. -/
def outputCoordinate (w : Int) (scale : UInt32) (offset : Int32) : Checked Int := do
  let distance ← IntRange.signed64.sub w offset.toInt
  if scale = 0 then .error .division else .ok (distance / scale.toNat)

def toOutput (v : Viewport) (wx wy : Int) : Checked (Int × Int) := do
  let x ← outputCoordinate wx v.scale v.offsetX
  let y ← outputCoordinate wy v.scale v.offsetY
  return (x, y)

end Viewport

end WorldMap
