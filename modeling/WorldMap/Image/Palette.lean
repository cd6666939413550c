import WorldMap.Image.Network
import WorldMap.Image.Pixmap
/-!
# Images with a palette

An image whose pixels are numbers of at most 256 colors. Such an image has no alpha channel, but one of
its colors may count as transparent. Every pixel of an image that is not wholly transparent becomes
opaque. If the image then has no more than 256 colors they are its palette; otherwise a network is
trained to find colors that come near to them.
-/

namespace WorldMap

/-- A picture that names its colors by their numbers in a palette. -/
structure Paletted where
  width : Nat
  height : Nat
  palette : Array Color
  indices : Array UInt8
  transparent : Option UInt8
  size_indices : indices.size = width * height

namespace Paletted

def maxColors : Nat := 256

/-- A color that is transparent as a whole or not at all. -/
def firm (c : Color) : Color := if c.a = 0 then c else { c with a := 255 }

/-- The place of a color in the order by red, green, blue and alpha. -/
def rank (c : Color) : UInt32 :=
  c.r.toUInt32 * 16777216 + c.g.toUInt32 * 65536 + c.b.toUInt32 * 256 + c.a.toUInt32

def distinct (cells : Array Color) : Array Color :=
  let sorted := cells.qsort fun a b => rank a < rank b
  sorted.foldl (fun found c => if found.back? = some c then found else found.push c) #[]

def indexIn (palette : Array Color) (c : Color) : UInt8 := (palette.idxOf c).toUInt8

def ofPalette (i : Image) (palette : Array Color) (index : Color → UInt8) : Paletted where
  width := i.width
  height := i.height
  palette
  indices := i.cells.map fun c => index (firm c)
  transparent := ((i.cells.reverse.find? fun c => c.a = 0)).map index
  size_indices := by rw [Array.size_map, i.size_cells]

def ofImage (i : Image) : Paletted :=
  let cells := i.cells.map firm
  let colors := distinct cells
  if colors.size ≤ maxColors then ofPalette i colors (indexIn colors)
  else
    let table := Network.table cells
    ofPalette i table.colors fun c => (table.nearest c).toUInt8

def color (p : Paletted) (index : UInt8) : Color :=
  { p.palette.getD index.toNat Color.black with a := if p.transparent = some index then 0 else 255 }

def toImage (p : Paletted) : Image :=
  ⟨p.width, p.height, p.indices.map p.color, by rw [Array.size_map, p.size_indices]⟩

end Paletted

end WorldMap
