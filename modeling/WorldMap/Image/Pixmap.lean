import WorldMap.Image.Color
import WorldMap.Image.Raster
/-!
# Pixmaps and images

A `Pixmap` is a surface to draw on: premultiplied pixels. An `Image` is a finished picture: straight
colors. A surface has at least one pixel, and a row of its four-byte pixels has to fit in a signed
32-bit number of bytes; `Pixmap.blank?` is the one place where a surface comes from.
-/

namespace WorldMap

abbrev Pixmap := Raster Pixel

abbrev Image := Raster Color

def maxSurfaceWidth : Nat := 2147483647 / 4

namespace Pixmap

/-- A transparent surface, or nothing if there is none of that size. -/
def blank? (width height : Nat) : Option Pixmap :=
  if width = 0 ∨ height = 0 ∨ maxSurfaceWidth < width then none
  else some (Raster.replicate width height Color.transparent.premultiply)

def fill (p : Pixmap) (c : Color) : Pixmap := Raster.replicate p.width p.height c.paint

def toImage (p : Pixmap) : Image := p.map Pixel.straighten

/-- The color shown `x` pixels after the first one of row `y`, if it is on the surface. Where a row ends
the next one goes on. -/
def color? (p : Pixmap) (x y : Nat) : Option Color :=
  (p.cells[y * p.width + x]?).map Pixel.straighten

end Pixmap

end WorldMap
