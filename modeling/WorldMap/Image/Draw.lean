import WorldMap.Image.Patch
/-!
# Drawing an image on a surface

An image is blended over what the surface shows: `out = d * (1 - alpha) + s` on every channel, in
single precision on fractions of 255. At one world point per pixel the source of a pixel is one image
pixel; at any other scale it is the mean of four.
-/

namespace WorldMap

/-- What is blended over a pixel: four channels as fractions of 255. -/
structure Source4 where
  r : Float32
  g : Float32
  b : Float32
  a : Float32

def unitStep : Float32 := 1 / 255

def unitParts (c : UInt8) : Float32 := c.toFloat32 * unitStep

/-- A number from 0 to 255 to the nearest integer; a half goes to the even neighbour. -/
def roundToByte (v : Float32) : UInt8 :=
  let n := v.toUInt8
  let rest := v - n.toFloat32
  if rest < 0.5 then n else if 0.5 < rest then n + 1 else n + n % 2

def blendChannel (s a : Float32) (d : UInt8) : UInt8 :=
  roundToByte (clampUnit (unitParts d * (1 - a) + s) * 255)

namespace Source4

def ofPixel (p : Pixel) : Source4 := ⟨unitParts p.r, unitParts p.g, unitParts p.b, unitParts p.a⟩

def addWeighted (s : Source4) (w : Float32) (p : Pixel) : Source4 where
  r := w * unitParts p.r + s.r
  g := w * unitParts p.g + s.g
  b := w * unitParts p.b + s.b
  a := w * unitParts p.a + s.a

def onto (s : Source4) (d : Pixel) : Pixel where
  r := blendChannel s.r s.a d.r
  g := blendChannel s.g s.a d.g
  b := blendChannel s.b s.a d.b
  a := blendChannel s.a s.a d.a

end Source4

namespace Pixel

def onto (s d : Pixel) : Pixel := (Source4.ofPixel s).onto d

end Pixel

namespace Pixmap

/-- The pixel of an image that a placement names; placements name only pixels of the image. -/
def pixelOf (image : Pixmap) (x y : Nat) : Pixel := (image.cell? x y).getD default

def mean (image : Pixmap) (cx cy : Taps) : Source4 :=
  let zero : Source4 := ⟨0, 0, 0, 0⟩
  let upper := (zero.addWeighted (cx.nearWeight * cy.nearWeight) (image.pixelOf cx.near cy.near)).addWeighted
    (cx.farWeight * cy.nearWeight) (image.pixelOf cx.far cy.near)
  (upper.addWeighted (cx.nearWeight * cy.farWeight) (image.pixelOf cx.near cy.far)).addWeighted
    (cx.farWeight * cy.farWeight) (image.pixelOf cx.far cy.far)

/-- Draws `image` with its first pixel at the world point `(x, y)`, on a canvas whose first pixel is
the world point `(offsetX, offsetY)`, at `scale` world points per pixel. -/
def drawImage (canvas image : Pixmap) (x y offsetX offsetY : Int) (scale : UInt32) : Pixmap :=
  if scale = 1 then
    let cols := Span.moved x image.width offsetX
    let rows := Span.moved y image.height offsetY
    let draw := fun sx sy => (image.pixelOf sx sy).onto
    if offsetX = 0 ∧ offsetY = 0 then
      canvas.paintWhole cols rows (middlePixel image.width) (middlePixel image.height) draw
    else canvas.paintSpans cols rows (middlePixel image.width) (middlePixel image.height) draw
  else
    canvas.paintSpans (Span.scaled x image.width offsetX scale) (Span.scaled y image.height offsetY scale)
      (tapsAt image.width scale) (tapsAt image.height scale) fun cx cy => (image.mean cx cy).onto

end Pixmap

end WorldMap
