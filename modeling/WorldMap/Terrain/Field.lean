import WorldMap.Log
import WorldMap.Terrain.HeightSample
import WorldMap.Terrain.Lattice
import WorldMap.World.Source
/-!
# Terrain

A terrain is a height between zero and one at every world position, made from a seed alone: octaves of
value noise, each twice as fine and half as high as the one before. It is a data source whose samples
are cut out of the one height field, so they agree wherever the tiles are.
-/

namespace WorldMap

/-- `featureSize` is the size of the largest features in world points, `octaves` is how many finer and
finer noises are laid over each other, and `seaLevel` is the height below which there is water. -/
structure Terrain where
  seed : UInt64
  featureSize : Float32
  octaves : Nat
  seaLevel : Float32
  lattice : Lattice

namespace Terrain

def ofSeed (seed : UInt64) : Terrain := ⟨seed, 256, 5, 0.4, Lattice.ofSeed seed⟩

def withFeatureSize (t : Terrain) (size : Float32) : Terrain :=
  { t with featureSize := atLeast 1 size }

def withOctaves (t : Terrain) (octaves : UInt32) : Terrain :=
  { t with octaves := min 12 (max 1 octaves.toNat) }

def withSeaLevel (t : Terrain) (level : Float32) : Terrain :=
  { t with seaLevel := clampUnit level }

/-- The octaves laid so far: how fine and how high the next one is, their sum, and the sum of how high
they are. -/
structure Octaves where
  frequency : Float32
  amplitude : Float32
  total : Float32
  norm : Float32

/-- Lays octave `k` at `(x, z)`. Octaves are shifted against each other, so that their lattices do not
meet in one point. -/
def addOctave (l : Lattice) (x z : Float32) (o : Octaves) (k : Nat) : Octaves :=
  let shift := k.toUInt64.toFloat32 * 17.31
  { frequency := o.frequency * 2
    amplitude := o.amplitude * 0.5
    total := o.total + o.amplitude * l.noise (x * o.frequency + shift) (z * o.frequency - shift)
    norm := o.norm + o.amplitude }

def heightAt (t : Terrain) (x z : Int) : Float32 :=
  let start : Octaves := ⟨1 / t.featureSize, 1, 0, 0⟩
  let sum := (List.range t.octaves).foldl
    (addOctave t.lattice (singleOfInt x) (singleOfInt z)) start
  clampUnit (sum.total / sum.norm)

def sample (t : Terrain) (v : Volume) : HeightSample where
  width := v.width
  depth := v.depth
  heights := Array.ofFn fun i : Fin (v.width.toNat * v.depth.toNat) =>
    t.heightAt (v.minX + (i.val % v.width.toNat : Nat)) (v.minZ + (i.val / v.width.toNat : Nat))
  seaLevel := t.seaLevel

/-- The greatest number of heights, of four bytes each, that memory has addresses for. -/
def maxHeights : Nat := 9223372036854775807 / 4

/-- A terrain is always ready, and knows every volume but those that no memory could hold. -/
def source (t : Terrain) : Source HeightSample where
  name := "terrain"
  prepare _ := .ok ()
  query v :=
    if maxHeights < v.width.toNat * v.depth.toNat then .error (.broke (.saying "capacity overflow"))
    else .ok (t.sample v)

def ready (t : Terrain) : Event := .terrainReady t.seed t.lattice.heights.size

end Terrain

end WorldMap
