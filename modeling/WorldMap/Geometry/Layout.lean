/-!
# Tile layouts

The world is cut into equal tiles. A layout fixes their size: `width` along x, `depth` along z, and
the `height` of the volume that is asked for above each tile. All three are positive, and the type
says so, so that dividing by them is always defined.
-/

namespace WorldMap

/-- The size of one chunk of world data along x, y and z. -/
def chunkSize : UInt32 × UInt32 × UInt32 := (32, 64, 32)

def verticalChunks : UInt32 := 4

def atLeastOne (n : UInt32) : UInt32 := if n = 0 then 1 else n

theorem atLeastOne_pos (n : UInt32) : 0 < (atLeastOne n).toNat := by
  unfold atLeastOne
  split
  · decide
  · rename_i h
    have : n.toNat ≠ 0 := fun e => h (UInt32.toNat_inj.1 e)
    omega

theorem atLeastOne_of_pos {n : UInt32} (h : 0 < n.toNat) : atLeastOne n = n := by
  unfold atLeastOne
  split
  · rename_i e
    subst e
    exact absurd h (by decide)
  · rfl

structure Layout where
  width : UInt32
  depth : UInt32
  height : UInt32
  width_pos : 0 < width.toNat
  depth_pos : 0 < depth.toNat
  height_pos : 0 < height.toNat
  deriving DecidableEq, Repr

namespace Layout

/-- Tiles of the given footprint and the usual height; a size of zero counts as one. -/
def ofFootprint (width depth : UInt32) : Layout where
  width := atLeastOne width
  depth := atLeastOne depth
  height := verticalChunks * chunkSize.2.1
  width_pos := atLeastOne_pos width
  depth_pos := atLeastOne_pos depth
  height_pos := by decide

def withHeight (l : Layout) (height : UInt32) : Layout :=
  { l with height := atLeastOne height, height_pos := atLeastOne_pos height }

def standard : Layout := ofFootprint (chunkSize.1 * 2) (chunkSize.2.2 * 2)

instance : Inhabited Layout := ⟨standard⟩

end Layout

end WorldMap
