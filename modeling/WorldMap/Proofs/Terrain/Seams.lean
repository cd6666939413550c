import Mathlib.Data.List.FinRange
import Mathlib.Data.List.OfFn
import WorldMap.Proofs.Geometry.Partition
import WorldMap.Terrain.Field
/-!
# Samples that meet without a seam

A terrain is one field of heights, and a tile of it is a rectangle cut out. The heights are pushed row
by row, so the one of column `x` in row `z` is found at `z * width + x`, a number that fits in 32 bits
as long as a tile has no more columns than there are such numbers. As the corner of the rectangle is
the origin of the tile, what is read under a world point is the field's height at that point, for the
tiles of any layout.
-/

namespace WorldMap

variable {t : Terrain} {l : Layout} {tile : Tile} {v : Volume} {x z : Int}

/-! ### Rows of heights -/

/-- Pushes `depth` rows of `width` values, each row in ascending columns. -/
def pushRows {α : Type} (f : Nat → Nat → α) (width depth : Nat) : Array α :=
  (List.range depth).foldl
    (fun all j => (List.range width).foldl (fun all i => all.push (f i j)) all) #[]

private theorem foldl_append_rows {α : Type} (rows : Nat → List α) (js : List Nat) (all : Array α) :
    (js.foldl (fun all j => all ++ (rows j).toArray) all).toList
      = all.toList ++ js.flatMap rows := by
  induction js generalizing all with
  | nil => simp
  | cons j js ih => simp [ih]

theorem toList_pushRows {α : Type} (f : Nat → Nat → α) (width depth : Nat) :
    (pushRows f width depth).toList
      = (List.range depth).flatMap fun j => (List.range width).map fun i => f i j := by
  simp only [pushRows, List.foldl_push_eq_append]
  simpa using foldl_append_rows (fun j => (List.range width).map fun i => f i j)
    (List.range depth) #[]

/-- The value at place `k` is that of column `k % width` in row `k / width`. -/
theorem pushRows_eq_ofFn {α : Type} (f : Nat → Nat → α) (width depth : Nat) :
    pushRows f width depth
      = Array.ofFn fun k : Fin (width * depth) => f (k.val % width) (k.val / width) := by
  apply Array.toList_inj.1
  rw [toList_pushRows, rows_eq_map_range, Array.toList_ofFn, List.ofFn_eq_map,
    ← List.map_coe_finRange_eq_range, List.map_map]
  rfl

/-- The place of a column, counted row by row. -/
theorem place_lt {i j width depth : Nat} (hi : i < width) (hj : j < depth) :
    j * width + i < width * depth := by
  have hrows : (j + 1) * width ≤ depth * width := Nat.mul_le_mul_right width hj
  rw [Nat.add_mul, Nat.mul_comm depth] at hrows
  omega

/-- The column and the row are told from the place. -/
theorem place_mod_div {i width : Nat} (hi : i < width) (j : Nat) :
    (j * width + i) % width = i ∧ (j * width + i) / width = j := by
  constructor
  · rw [Nat.mul_add_mod', Nat.mod_eq_of_lt hi]
  · rw [Nat.mul_comm, Nat.mul_add_div (Nat.zero_lt_of_lt hi), Nat.div_eq_of_lt hi, Nat.add_zero]

namespace HeightSample

variable {s : HeightSample} {i j : UInt32}

/-- The height in column `i` of row `j`, if the sample has it. -/
def at? (s : HeightSample) (i j : Nat) : Option Float32 :=
  if i < s.width.toNat ∧ j < s.depth.toNat then s.heights[j * s.width.toNat + i]? else none

theorem height_of_outside (h : s.width ≤ i ∨ s.depth ≤ j) : s.height i j = .ok none := by
  rw [height, if_pos h]
  rfl

/-- What is computed for a column that the sample has. -/
theorem height_of_inside (hi : i < s.width) (hj : j < s.depth) :
    s.height i j = (do
      let rows ← IntRange.unsigned32.mul j.toNat s.width.toNat
      let place ← IntRange.unsigned32.add rows i.toNat
      return s.heights[place.toNat]?) := by
  have hwithin : ¬ (s.width ≤ i ∨ s.depth ≤ j) := by
    rw [not_or, UInt32.not_le, UInt32.not_le]
    exact ⟨hi, hj⟩
  rw [height, if_neg hwithin]

/-- The place is computed without a fault if it is a word. -/
theorem height_of_place_mem (hi : i < s.width) (hj : j < s.depth)
    (hplace : j.toNat * s.width.toNat + i.toNat < 4294967296) :
    s.height i j = .ok s.heights[j.toNat * s.width.toNat + i.toNat]? := by
  have hrows : (j.toNat : Int) * s.width.toNat ∈ IntRange.unsigned32 := by
    rw [← Int.natCast_mul, IntRange.mem_unsigned32]
    omega
  have hsum : (j.toNat : Int) * s.width.toNat + i.toNat ∈ IntRange.unsigned32 := by
    rw [← Int.natCast_mul, IntRange.mem_unsigned32]
    omega
  have hexact : ((j.toNat : Int) * s.width.toNat + i.toNat).toNat
      = j.toNat * s.width.toNat + i.toNat := by
    rw [← Int.natCast_mul, ← Int.natCast_add, Int.toNat_natCast]
  rw [height_of_inside hi hj, IntRange.mul_of_mem hrows]
  -- what is left to compute once the rows are counted
  change (do
    let place ← IntRange.unsigned32.add (j.toNat * s.width.toNat) i.toNat
    return s.heights[place.toNat]?) = _
  rw [IntRange.add_of_mem hsum, ← hexact]
  rfl

/-- A place that is not a word is not computed. -/
theorem height_of_place_not_mem (hi : i < s.width) (hj : j < s.depth)
    (hplace : 4294967296 ≤ j.toNat * s.width.toNat + i.toNat) :
    ∃ fault, s.height i j = .error fault := by
  rw [height_of_inside hi hj]
  by_cases hrows : (j.toNat : Int) * s.width.toNat ∈ IntRange.unsigned32
  · have hsum : (j.toNat : Int) * s.width.toNat + i.toNat ∉ IntRange.unsigned32 := by
      rw [← Int.natCast_mul, IntRange.mem_unsigned32]
      omega
    rw [IntRange.mul_of_mem hrows]
    change ∃ fault, (do
      let place ← IntRange.unsigned32.add (j.toNat * s.width.toNat) i.toNat
      return s.heights[place.toNat]?) = Except.error fault
    rw [IntRange.add, IntRange.check_of_not_mem hsum]
    exact ⟨_, rfl⟩
  · rw [IntRange.mul, IntRange.check_of_not_mem hrows]
    exact ⟨_, rfl⟩

/-- Every place is a word as long as the sample has no more places than there are words. -/
theorem height_eq_at? (hcolumns : s.width.toNat * s.depth.toNat ≤ 4294967296) (i j : UInt32) :
    s.height i j = .ok (s.at? i.toNat j.toNat) := by
  by_cases hinside : i.toNat < s.width.toNat ∧ j.toNat < s.depth.toNat
  · obtain ⟨hi, hj⟩ := hinside
    have hplace := place_lt hi hj
    rw [at?, if_pos ⟨hi, hj⟩, height_of_place_mem (UInt32.lt_iff_toNat_lt.2 hi)
      (UInt32.lt_iff_toNat_lt.2 hj) (by omega)]
  · rw [at?, if_neg hinside]
    apply height_of_outside
    rwa [UInt32.le_iff_toNat_le, UInt32.le_iff_toNat_le, ← Nat.not_lt, ← Nat.not_lt, ← not_and_or]

/-- The sample of a volume that is cut out of a field of heights. -/
def ofField (h : Int → Int → Float32) (seaLevel : Float32) (v : Volume) : HeightSample where
  width := v.width
  depth := v.depth
  heights := Array.ofFn fun k : Fin (v.width.toNat * v.depth.toNat) =>
    h (v.minX + (k.val % v.width.toNat : Nat)) (v.minZ + (k.val / v.width.toNat : Nat))
  seaLevel := seaLevel

variable {h : Int → Int → Float32} {seaLevel : Float32}

/-- The heights are those of the rows of the volume, from its corner on. -/
theorem heights_ofField : (ofField h seaLevel v).heights
    = pushRows (fun i j => h (v.minX + i) (v.minZ + j)) v.width.toNat v.depth.toNat :=
  (pushRows_eq_ofFn (fun i j => h (v.minX + i) (v.minZ + j)) _ _).symm

theorem size_heights_ofField :
    (ofField h seaLevel v).heights.size = v.width.toNat * v.depth.toNat :=
  Array.size_ofFn

/-- The sample has the field's height at each of its columns, and none elsewhere. -/
theorem at?_ofField (i j : Nat) : (ofField h seaLevel v).at? i j
    = if i < v.width.toNat ∧ j < v.depth.toNat then some (h (v.minX + i) (v.minZ + j))
      else none := by
  by_cases hinside : i < v.width.toNat ∧ j < v.depth.toNat
  · obtain ⟨hcolumn, hrow⟩ := place_mod_div hinside.1 j
    rw [if_pos hinside, at?]
    refine (if_pos hinside).trans ?_
    simp only [ofField, Array.getElem?_ofFn, hcolumn, hrow,
      dif_pos (place_lt hinside.1 hinside.2)]
  · rw [if_neg hinside, at?]
    exact if_neg hinside

end HeightSample

namespace Terrain

/-- A terrain cuts its samples out of its own field. -/
theorem sample_eq_ofField (t : Terrain) (v : Volume) :
    t.sample v = .ofField t.heightAt t.seaLevel v :=
  rfl

theorem query_source (hfits : v.width.toNat * v.depth.toNat ≤ maxHeights) :
    t.source.query v = .ok (t.sample v) :=
  if_neg (Nat.not_lt.2 hfits)

end Terrain

/-! ### Reading through a layout -/

/-- How many columns of the world a tile has. -/
def Layout.columns (l : Layout) : Nat := l.width.toNat * l.depth.toNat

namespace Tile

/-- How far a point lies from the first column of a tile. -/
def localX (tile : Tile) (l : Layout) (x : Int) : UInt32 := UInt32.ofNat (x - tile.originX l).toNat

/-- How far a point lies from the first row of a tile. -/
def localZ (tile : Tile) (l : Layout) (z : Int) : UInt32 := UInt32.ofNat (z - tile.originZ l).toNat

/-- A distance below a word is a word itself. -/
private theorem ofNat_distance {n : Int} (size : UInt32) (hlow : 0 ≤ n) (hhigh : n < size.toNat) :
    ((UInt32.ofNat n.toNat).toNat : Int) = n ∧ UInt32.ofNat n.toNat < size := by
  have hsize := IntRange.mem_unsigned32.1 (IntRange.toNat_mem size)
  have hexact := IntRange.toNat_ofNat_toNat (n := n) (IntRange.mem_unsigned32.2 (by omega))
  refine ⟨hexact, UInt32.lt_iff_toNat_lt.2 ?_⟩
  omega

theorem Covers.localX_spec (h : tile.Covers l x z) :
    tile.originX l + (tile.localX l x).toNat = x ∧ tile.localX l x < l.width := by
  have hlow := h.originX_le
  have hhigh := h.lt_endX
  obtain ⟨hexact, hlt⟩ := ofNat_distance (n := x - tile.originX l) l.width
    (by omega) (by omega)
  exact ⟨by rw [localX, hexact]; omega, hlt⟩

theorem Covers.localZ_spec (h : tile.Covers l x z) :
    tile.originZ l + (tile.localZ l z).toNat = z ∧ tile.localZ l z < l.depth := by
  have hlow := h.originZ_le
  have hhigh := h.lt_endZ
  obtain ⟨hexact, hlt⟩ := ofNat_distance (n := z - tile.originZ l) l.depth
    (by omega) (by omega)
  exact ⟨by rw [localZ, hexact]; omega, hlt⟩

end Tile

namespace Terrain

/-- The height read at a world point through a layout: the volume of the tile under the point is asked
for, and its sample is read at the place of the point in the tile. -/
def readAt (t : Terrain) (l : Layout) (x z : Int) :
    Attempt SourceError (Checked (Option Float32)) := do
  let tile := Tile.containing x z l
  let s ← t.source.query (tile.volume l)
  return s.height (tile.localX l x) (tile.localZ l z)

/-- The tile is answered with a sample of its own size, none of whose columns is missing and none of
whose places is out of range, from world coordinates that are words. -/
structure Answers (t : Terrain) (tile : Tile) (l : Layout) (s : HeightSample) : Prop where
  query_eq : t.source.query (tile.volume l) = .ok s
  worldX_mem : ∀ i, i < l.width.toNat → tile.originX l + i ∈ IntRange.signed64
  worldZ_mem : ∀ j, j < l.depth.toNat → tile.originZ l + j ∈ IntRange.signed64
  width_eq : s.width = l.width
  depth_eq : s.depth = l.depth
  heights_eq : s.heights = pushRows
    (fun i j => t.heightAt (tile.originX l + i) (tile.originZ l + j)) l.width.toNat l.depth.toNat
  size_eq : s.heights.size = l.columns
  height_isOk : ∀ i j, ∃ height, s.height i j = .ok height
  height_eq_none_iff : ∀ i j, s.height i j = .ok none ↔ l.width ≤ i ∨ l.depth ≤ j

/-- The height of a column of a tile is the field's at the column's place in the world. -/
theorem height_sample_volume (hcolumns : l.columns ≤ 4294967296) (i j : UInt32) :
    (t.sample (tile.volume l)).height i j
      = .ok (if i < l.width ∧ j < l.depth then
          some (t.heightAt (tile.originX l + i.toNat) (tile.originZ l + j.toNat)) else none) := by
  rw [HeightSample.height_eq_at? (s := t.sample (tile.volume l)) hcolumns, sample_eq_ofField,
    HeightSample.at?_ofField]
  simp only [UInt32.lt_iff_toNat_lt]
  rfl

theorem answers_sample (t : Terrain) (tile : Tile) (hcolumns : l.columns ≤ 4294967296) :
    t.Answers tile l (t.sample (tile.volume l)) where
  query_eq := query_source (Nat.le_trans hcolumns (by decide))
  worldX_mem i hi := by
    obtain ⟨hlow, hhigh⟩ := tile.originX_mem l
    rw [IntRange.mem_signed64] at hlow hhigh ⊢
    omega
  worldZ_mem j hj := by
    obtain ⟨hlow, hhigh⟩ := tile.originZ_mem l
    rw [IntRange.mem_signed64] at hlow hhigh ⊢
    omega
  width_eq := rfl
  depth_eq := rfl
  heights_eq := HeightSample.heights_ofField
  size_eq := HeightSample.size_heights_ofField
  height_isOk i j := ⟨_, height_sample_volume hcolumns i j⟩
  height_eq_none_iff i j := by
    rw [height_sample_volume hcolumns, ← UInt32.not_lt, ← UInt32.not_lt, ← not_and_or]
    split <;> simp_all

/-- The point lies under its tile at a place that is told exactly, and what is read there is the
field's height. -/
structure Reads (t : Terrain) (l : Layout) (x z : Int) : Prop where
  column_eq : (Tile.containing x z l).originX l + ((Tile.containing x z l).localX l x).toNat = x
  row_eq : (Tile.containing x z l).originZ l + ((Tile.containing x z l).localZ l z).toNat = z
  readAt_eq : t.readAt l x z = .ok (.ok (some (t.heightAt x z)))

theorem reads_of_covers (t : Terrain) (hcolumns : l.columns ≤ 4294967296)
    (hcovers : (Tile.containing x z l).Covers l x z) : t.Reads l x z := by
  obtain ⟨hworldX, hltX⟩ := hcovers.localX_spec
  obtain ⟨hworldZ, hltZ⟩ := hcovers.localZ_spec
  have hheight : (t.sample ((Tile.containing x z l).volume l)).height
      ((Tile.containing x z l).localX l x) ((Tile.containing x z l).localZ l z)
        = .ok (some (t.heightAt x z)) := by
    rw [height_sample_volume hcolumns, if_pos ⟨hltX, hltZ⟩, hworldX, hworldZ]
  have hquery : t.source.query ((Tile.containing x z l).volume l) = .ok (t.sample _) :=
    query_source (Nat.le_trans hcolumns (by decide))
  refine ⟨hworldX, hworldZ, ?_⟩
  simp only [readAt, hquery]
  exact congrArg Except.ok hheight

/-- Tiles of terrain meet without a seam, whatever their layout. With no more columns to a tile than
32-bit numbers, every tile is answered with a whole sample of its size, and what is read under a
world point is the field's height at that point: the same through any two layouts. -/
theorem tiles_are_seamless (t : Terrain) :
    (∀ (l m : Layout) (x z : Int), l.columns ≤ 4294967296 → m.columns ≤ 4294967296 →
      (x / l.width.toNat ∈ IntRange.signed32 ∧ z / l.depth.toNat ∈ IntRange.signed32) →
      (x / m.width.toNat ∈ IntRange.signed32 ∧ z / m.depth.toNat ∈ IntRange.signed32) →
      t.Reads l x z ∧ t.Reads m x z ∧ t.readAt l x z = t.readAt m x z) ∧
    ∀ (l : Layout) (tile : Tile), l.columns ≤ 4294967296 → ∃ s, t.Answers tile l s := by
  constructor
  · intro l m x z hl hm hpoint hpoint'
    have hreads := t.reads_of_covers hl (Tile.containing_covers hpoint.1 hpoint.2)
    have hreads' := t.reads_of_covers hm (Tile.containing_covers hpoint'.1 hpoint'.2)
    exact ⟨hreads, hreads', hreads.readAt_eq.trans hreads'.readAt_eq.symm⟩
  · intro l tile hcolumns
    exact ⟨_, t.answers_sample tile hcolumns⟩

private def narrowTiles : Layout := Layout.ofFootprint 16 8

/-- Tiles with as many columns as there are 32-bit numbers. -/
private def vastTiles : Layout := Layout.ofFootprint 65536 65536

/-- A point left of the origin, in the last column and row of its narrow tile. -/
theorem tiles_are_seamless_narrowAndVast :
    (Terrain.ofSeed 5).readAt narrowTiles (-17) 31 = (Terrain.ofSeed 5).readAt vastTiles (-17) 31 ∧
    (∃ s, (Terrain.ofSeed 5).Answers ⟨-2, 3⟩ narrowTiles s ∧ s.heights.size = 128) ∧
    ∃ s, (Terrain.ofSeed 5).Answers ⟨-1, 0⟩ vastTiles s ∧ s.heights.size = 4294967296 := by
  obtain ⟨hreads, hanswers⟩ := tiles_are_seamless (Terrain.ofSeed 5)
  obtain ⟨-, -, hread⟩ := hreads narrowTiles vastTiles (-17) 31 (by decide) (by decide)
    (by decide) (by decide)
  obtain ⟨narrow, hnarrow⟩ := hanswers narrowTiles ⟨-2, 3⟩ (by decide)
  obtain ⟨vast, hvast⟩ := hanswers vastTiles ⟨-1, 0⟩ (by decide)
  exact ⟨hread, ⟨narrow, hnarrow, hnarrow.size_eq⟩, vast, hvast, hvast.size_eq⟩

end Terrain

end WorldMap
