import WorldMap.Proofs.Geometry.Tightness
/-!
# Tiles part the plane

A tile is seen in three ways: by its column and row, by the rectangle from its origin on, and as the
box that is asked for above it. The tile that a point is divided into and the rectangle that has the
point are inverse to each other, as both say what the two quotients are (`Tile.covers_iff`). All that
machine words add is that a quotient which does not fit in 32 bits names no tile; the products that
lead back to the rectangle always fit in 64.
-/

namespace WorldMap

variable {l : Layout} {t u : Tile} {x y z : Int}

namespace Volume

/-- The world points of the box. -/
structure Contains (v : Volume) (x y z : Int) : Prop where
  minX_le : v.minX ≤ x
  lt_maxX : x < v.minX + v.width.toNat
  minY_le : v.minY ≤ y
  lt_maxY : y < v.minY + v.height.toNat
  minZ_le : v.minZ ≤ z
  lt_maxZ : z < v.minZ + v.depth.toNat

end Volume

namespace Tile

/-- A 32-bit column begins and ends at a 64-bit coordinate, however wide it is. -/
private theorem part_mem_signed64 (column : Int32) (size : UInt32) :
    column.toInt * size.toNat ∈ IntRange.signed64 ∧
    column.toInt * size.toNat + size.toNat ∈ IntRange.signed64 := by
  have hcolumn := IntRange.mem_signed32.1 (IntRange.toInt_mem column)
  have hsize := IntRange.mem_unsigned32.1 (IntRange.toNat_mem size)
  have hlow : -2147483648 * (size.toNat : Int) ≤ column.toInt * size.toNat :=
    Int.mul_le_mul_of_nonneg_right hcolumn.1 hsize.1
  have hhigh : column.toInt * size.toNat ≤ 2147483647 * (size.toNat : Int) :=
    Int.mul_le_mul_of_nonneg_right hcolumn.2 hsize.1
  rw [IntRange.mem_signed64, IntRange.mem_signed64]
  omega

theorem originX_mem (t : Tile) (l : Layout) :
    t.originX l ∈ IntRange.signed64 ∧ t.originX l + l.width.toNat ∈ IntRange.signed64 :=
  part_mem_signed64 t.x l.width

theorem originZ_mem (t : Tile) (l : Layout) :
    t.originZ l ∈ IntRange.signed64 ∧ t.originZ l + l.depth.toNat ∈ IntRange.signed64 :=
  part_mem_signed64 t.z l.depth

/-- The tile under a point covers it if the quotients are words. -/
theorem containing_covers (hx : x / l.width.toNat ∈ IntRange.signed32)
    (hz : z / l.depth.toNat ∈ IntRange.signed32) : (containing x z l).Covers l x z :=
  covers_iff.2 ⟨(IntRange.toInt_ofInt hx).symm, (IntRange.toInt_ofInt hz).symm⟩

/-- A point that some tile covers has quotients that are words. -/
theorem Covers.quotients_mem (h : t.Covers l x z) :
    x / l.width.toNat ∈ IntRange.signed32 ∧ z / l.depth.toNat ∈ IntRange.signed32 := by
  obtain ⟨hx, hz⟩ := covers_iff.1 h
  rw [hx, hz]
  exact ⟨IntRange.toInt_mem t.x, IntRange.toInt_mem t.z⟩

theorem Covers.containing_eq (h : t.Covers l x z) : containing x z l = t :=
  (containing_covers h.quotients_mem.1 h.quotients_mem.2).unique h

/-- The volume of a tile stands on its footprint, from height zero on. -/
theorem volume_contains_iff :
    (t.volume l).Contains x y z ↔ t.Covers l x z ∧ 0 ≤ y ∧ y < l.height.toNat := by
  constructor
  · rintro ⟨hx, hx', hy, hy', hz, hz'⟩
    have hheight : y < 0 + l.height.toNat := hy'
    exact ⟨⟨hx, hx', hz, hz'⟩, hy, by omega⟩
  · rintro ⟨⟨hx, hx', hz, hz'⟩, hy, hy'⟩
    have hheight : y < 0 + l.height.toNat := by omega
    exact ⟨hx, hx', hy, hheight, hz, hz'⟩

/-- The tiles of a layout part the plane. The rectangle of every tile begins and ends at 64-bit
coordinates, and the points in it are divided back into that tile. A point whose quotients are words
lies under the tile they name and under no other. The volume of a tile is its rectangle up to the
layout's height, so that two tiles share no point of their volumes. -/
theorem tiles_part_plane (l : Layout) :
    (∀ t : Tile,
      (t.originX l ∈ IntRange.signed64 ∧ t.originX l + l.width.toNat ∈ IntRange.signed64) ∧
      (t.originZ l ∈ IntRange.signed64 ∧ t.originZ l + l.depth.toNat ∈ IntRange.signed64) ∧
      ∀ x z, t.Covers l x z → containing x z l = t) ∧
    (∀ x z : Int, x / l.width.toNat ∈ IntRange.signed32 →
      z / l.depth.toNat ∈ IntRange.signed32 →
      ∀ t : Tile, t.Covers l x z ↔ t = containing x z l) ∧
    (∀ (t : Tile) (x y z : Int),
      (t.volume l).Contains x y z ↔ t.Covers l x z ∧ 0 ≤ y ∧ y < l.height.toNat) ∧
    ∀ t u : Tile, t ≠ u → ∀ x y z,
      ¬ ((t.volume l).Contains x y z ∧ (u.volume l).Contains x y z) := by
  refine ⟨fun t => ⟨t.originX_mem l, t.originZ_mem l, fun x z h => h.containing_eq⟩,
    fun x z hx hz t => ⟨fun h => h.containing_eq.symm, ?_⟩,
    fun t x y z => volume_contains_iff, ?_⟩
  · rintro rfl
    exact containing_covers hx hz
  · rintro t u hne x y z ⟨ht, hu⟩
    exact hne ((volume_contains_iff.1 ht).1.unique (volume_contains_iff.1 hu).1)

/-- The widest tiles there are, three points deep. -/
private def wideLayout : Layout := Layout.ofFootprint 4294967295 3

/-- The first and the last point of the world that tiles of this size reach lie under the first and
the last tile, a point left of the origin lies under the tile on the left, and one further than the
last tile has none. -/
theorem tiles_part_plane_wideLayout :
    (∀ t : Tile, t.Covers wideLayout (-9223372034707292160) (-6442450944) ↔
      t = ⟨-2147483648, -2147483648⟩) ∧
    (∀ t : Tile, t.Covers wideLayout 9223372034707292159 6442450943 ↔
      t = ⟨2147483647, 2147483647⟩) ∧
    (∀ t : Tile, t.Covers wideLayout (-1) 3 ↔ t = ⟨-1, 1⟩) ∧
    ¬ (∃ t : Tile, t.Covers wideLayout 9223372034707292160 0) := by
  obtain ⟨-, hunder, -, -⟩ := tiles_part_plane wideLayout
  refine ⟨hunder _ _ (by decide) (by decide), hunder _ _ (by decide) (by decide),
    hunder _ _ (by decide) (by decide), ?_⟩
  rintro ⟨t, h⟩
  exact absurd h.quotients_mem.1 (by decide)

end Tile

end WorldMap
