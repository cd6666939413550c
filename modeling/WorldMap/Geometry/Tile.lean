import WorldMap.Geometry.Layout
/-!
# Tiles

A tile is named by its column and row. Under a layout it has a footprint in the world, which starts
at `origin` and is as large as the layout says, and a volume, which is that footprint with the
layout's height above it. Tiles are ordered by column and then by row.
-/

namespace WorldMap

structure Tile where
  x : Int32
  z : Int32
  deriving DecidableEq, Repr, Inhabited

/-- The box of world points above one tile, its maximum corner excluded; y points up. -/
structure Volume where
  tile : Tile
  minX : Int
  minY : Int
  minZ : Int
  width : UInt32
  height : UInt32
  depth : UInt32
  deriving DecidableEq, Repr

namespace Tile

instance : Ord Tile where
  compare a b := (compare a.x.toInt b.x.toInt).then (compare a.z.toInt b.z.toInt)

/-- The tile under a world point. The quotients are cut down to 32 bits. -/
def containing (x z : Int) (l : Layout) : Tile :=
  ⟨Int32.ofInt (x / l.width.toNat), Int32.ofInt (z / l.depth.toNat)⟩

def originX (t : Tile) (l : Layout) : Int := t.x.toInt * l.width.toNat

def originZ (t : Tile) (l : Layout) : Int := t.z.toInt * l.depth.toNat

def volume (t : Tile) (l : Layout) : Volume where
  tile := t
  minX := t.originX l
  minY := 0
  minZ := t.originZ l
  width := l.width
  height := l.height
  depth := l.depth

def text (t : Tile) : String := s!"({t.x.toInt}, {t.z.toInt})"

end Tile

namespace Volume

def text (v : Volume) : String :=
  s!"{v.tile.text}+{v.width}x{v.height}x{v.depth} at ({v.minX}, {v.minY}, {v.minZ})"

end Volume

end WorldMap
