import WorldMap.Geometry.Tile
/-!
# Collected tiles

What is left of a tile when its computation is over: its image, unless it failed.
-/

namespace WorldMap

/-- One tile of a finished collection; a tile that failed has no image. -/
structure TileResult (α : Type) where
  tile : Tile
  image : Option α

namespace TileResult

variable {α : Type}

def isRendered (t : TileResult α) : Bool := t.image.isSome

end TileResult

end WorldMap
