import WorldMap.Fault
/-!
# Samples of heights

What a terrain answers a tile with: the height of every column of the tile, and the sea level.
-/

namespace WorldMap

/-- The heights of `depth` rows of `width` columns, row by row. -/
structure HeightSample where
  width : UInt32
  depth : UInt32
  heights : Array Float32
  seaLevel : Float32

namespace HeightSample

/-- The height in column `x` of row `z`, if the sample has it. The place of a height in the sample is
a number of 32 bits. -/
def height (s : HeightSample) (x z : UInt32) : Checked (Option Float32) := do
  if s.width ≤ x ∨ s.depth ≤ z then return none
  let rows ← IntRange.unsigned32.mul z.toNat s.width.toNat
  let place ← IntRange.unsigned32.add rows x.toNat
  return s.heights[place.toNat]?

end HeightSample

end WorldMap
