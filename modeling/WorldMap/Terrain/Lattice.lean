import WorldMap.Number.Single
import WorldMap.Random.Stream
/-!
# Value noise

A lattice has a random height at every point with whole coordinates, and repeats itself after 256
points in either direction. `Lattice.noise` passes smoothly from point to point, so it is between the
heights of the four points around it.
-/

namespace WorldMap

def latticeSide : Nat := 256

/-- Heights from zero to one, row by row. -/
structure Lattice where
  heights : Array Float32
  size_heights : heights.size = latticeSide * latticeSide

namespace Lattice

/-- The lattice of a seed. Each height takes one word of the seed's stream. -/
def ofSeed (seed : UInt64) : Lattice where
  heights := (Random.words (Random.key seed) 4096).map Random.unitFloat
  size_heights := by rw [Array.size_map, Random.size_words]; rfl

def wrap (c : Float32) : Nat := (c.toInt64.toUInt64 % 256).toNat

theorem wrap_lt (c : Float32) : wrap c < latticeSide := by
  unfold wrap latticeSide
  rw [UInt64.toNat_mod]
  exact Nat.mod_lt _ (by decide)

theorem place_lt (l : Lattice) (x z : Float32) :
    wrap z * latticeSide + wrap x < l.heights.size := by
  have row := wrap_lt z
  have column := wrap_lt x
  rw [l.size_heights]
  unfold latticeSide at *
  omega

def height (l : Lattice) (x z : Float32) : Float32 :=
  have := l.place_lt x z
  l.heights[wrap z * latticeSide + wrap x]

/-- A passage from zero to one that is level at both ends. -/
def smooth (t : Float32) : Float32 := t * t * (3 - 2 * t)

def noise (l : Lattice) (x z : Float32) : Float32 :=
  let west := x.floor
  let north := z.floor
  let east := west + 1
  let south := north + 1
  let across := smooth (x - west)
  interpolate (interpolate (l.height west north) (l.height east north) across)
    (interpolate (l.height west south) (l.height east south) across) (smooth (z - north))

end Lattice

end WorldMap
