import WorldMap.Fault
import WorldMap.Geometry.Area
import WorldMap.Geometry.Tile
/-!
# Tile grids

A rectangle of tiles, its maximum corner excluded. `Grid.tiles` lists them row by row; a `Cursor`
visits the same tiles one at a time in 32-bit arithmetic and can tell how many are left.

`Grid.cover` is the grid of an area: the minimum corner is divided rounding down and the maximum
corner rounding up, so that an area with points is covered also where it is not aligned. It never
fails, and `Grid.covering` is what it comes to.
-/

namespace WorldMap

/-- The tiles `(x, z)` with `minX ≤ x < maxX` and `minZ ≤ z < maxZ`. -/
structure Grid where
  minX : Int32
  minZ : Int32
  maxX : Int32
  maxZ : Int32
  minX_le : minX.toInt ≤ maxX.toInt
  minZ_le : minZ.toInt ≤ maxZ.toInt
  deriving DecidableEq, Repr

private def upper (a b : Int32) : Int32 := if a.toInt ≤ b.toInt then b else a

private theorem le_upper (a b : Int32) : a.toInt ≤ (upper a b).toInt := by
  unfold upper
  split <;> omega

namespace Grid

/-- The grid between two corners; a maximum below the minimum is moved up to it. -/
def ofCorners (minX minZ maxX maxZ : Int32) : Grid where
  minX := minX
  minZ := minZ
  maxX := upper minX maxX
  maxZ := upper minZ maxZ
  minX_le := le_upper minX maxX
  minZ_le := le_upper minZ maxZ

theorem maxX_ofCorners {minX minZ maxX maxZ : Int32} (h : minX.toInt ≤ maxX.toInt) :
    (ofCorners minX minZ maxX maxZ).maxX = maxX := if_pos h

theorem maxZ_ofCorners {minX minZ maxX maxZ : Int32} (h : minZ.toInt ≤ maxZ.toInt) :
    (ofCorners minX minZ maxX maxZ).maxZ = maxZ := if_pos h

def width (g : Grid) : Nat := (g.maxX.toInt - g.minX.toInt).toNat

def depth (g : Grid) : Nat := (g.maxZ.toInt - g.minZ.toInt).toNat

def size (g : Grid) : Nat := g.width * g.depth

def isEmpty (g : Grid) : Bool := g.size == 0

def contains (g : Grid) (t : Tile) : Bool :=
  g.minX.toInt ≤ t.x.toInt && t.x.toInt < g.maxX.toInt
    && g.minZ.toInt ≤ t.z.toInt && t.z.toInt < g.maxZ.toInt

def tileAt (g : Grid) (i j : Nat) : Tile :=
  ⟨Int32.ofInt (g.minX.toInt + i), Int32.ofInt (g.minZ.toInt + j)⟩

/-- All tiles, row by row, each row in ascending columns. -/
def tiles (g : Grid) : List Tile :=
  (List.range g.depth).flatMap fun j => (List.range g.width).map fun i => g.tileAt i j

theorem length_tiles (g : Grid) : g.tiles.length = g.size := by
  simp [tiles, size, List.length_flatMap, List.map_const', Nat.mul_comm]

/-- The world rectangle under all tiles. Its sides must fit in 32 bits; its corner is cut down. -/
def extent (g : Grid) (l : Layout) : Checked Area := do
  let first : Tile := ⟨g.minX, g.minZ⟩
  let width ← IntRange.unsigned32.mul g.width l.width.toNat
  let height ← IntRange.unsigned32.mul g.depth l.depth.toNat
  return {
    minX := Int32.ofInt (first.originX l)
    minY := Int32.ofInt (first.originZ l)
    width := UInt32.ofNat width.toNat
    height := UInt32.ofNat height.toNat }

/-- The least number of parts of size `d` that reach `n`: division that rounds up. -/
def ceilDiv (n d : Int) : Int := -((-n) / d)

/-- Division that rounds down. -/
def floorDivide (n : Int) (d : UInt32) : Checked Int :=
  if d = 0 then .error .division else .ok (n / d.toNat)

/-- Division that rounds up, as one that rounds down between two changes of sign. -/
def ceilDivide (n : Int) (d : UInt32) : Checked Int := do
  let quotient ← floorDivide (← IntRange.signed64.neg n) d
  IntRange.signed64.neg quotient

/-- The grid that covers an area, in checked 64-bit arithmetic. The quotients are cut down to 32 bits. -/
def cover (a : Area) (l : Layout) : Checked Grid := do
  let minX ← floorDivide a.minX.toInt l.width
  let minZ ← floorDivide a.minY.toInt l.depth
  let maxX ← ceilDivide (← IntRange.signed64.add a.minX.toInt a.width.toNat) l.width
  let maxZ ← ceilDivide (← IntRange.signed64.add a.minY.toInt a.height.toNat) l.depth
  return ofCorners (Int32.ofInt minX) (Int32.ofInt minZ) (Int32.ofInt maxX) (Int32.ofInt maxZ)

/-- The grid that `cover` comes to for every area and layout. -/
def covering (a : Area) (l : Layout) : Grid :=
  ofCorners
    (Int32.ofInt (a.minX.toInt / l.width.toNat)) (Int32.ofInt (a.minY.toInt / l.depth.toNat))
    (Int32.ofInt (ceilDiv a.maxX l.width.toNat)) (Int32.ofInt (ceilDiv a.maxY l.depth.toNat))

structure Cursor where
  grid : Grid
  next : Tile

def cursor (g : Grid) : Cursor := ⟨g, ⟨g.minX, g.minZ⟩⟩

namespace Cursor

def isDone (c : Cursor) : Bool := c.grid.isEmpty || c.grid.maxZ.toInt ≤ c.next.z.toInt

def step (c : Cursor) : Checked (Option (Tile × Cursor)) :=
  if c.isDone then .ok none
  else do
    let x ← IntRange.signed32.add c.next.x.toInt 1
    if x < c.grid.maxX.toInt then
      return some (c.next, { c with next := ⟨Int32.ofInt x, c.next.z⟩ })
    else
      let z ← IntRange.signed32.add c.next.z.toInt 1
      return some (c.next, { c with next := ⟨c.grid.minX, Int32.ofInt z⟩ })

/-- How many tiles are left: whole rows, less the columns of this row that are done. The two
differences are taken in 32 bits. -/
def remaining (c : Cursor) : Checked Nat :=
  if c.isDone then .ok 0
  else do
    let rows ← IntRange.signed32.sub c.grid.maxZ.toInt c.next.z.toInt
    let done ← IntRange.signed32.sub c.next.x.toInt c.grid.minX.toInt
    let all ← IntRange.unsigned64.mul rows c.grid.width
    let left ← IntRange.unsigned64.sub all done
    return left.toNat

end Cursor

end Grid

end WorldMap
