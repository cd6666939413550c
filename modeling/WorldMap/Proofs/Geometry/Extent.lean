import WorldMap.Proofs.Geometry.Degenerate
import WorldMap.Proofs.Geometry.Partition
/-!
# The extent of a grid

The tiles of a grid make up a rectangle of the world. It can be had from the corners of the grid, as
their multiples by the size of a tile, or point by point, by dividing a point and looking for its tile
in the grid. On each axis the two come to the same (`ediv_between_iff`), so the extent has the points
that lie under tiles of the grid, and no others.

An extent is an area, so its corner and its sides have to fit in 32 bits (`Grid.Bounded`). Where they
do nothing is cut down on the way, and where they do not there is no extent or a wrong one
(`bounded_iff`).
-/

namespace WorldMap

namespace Area

/-- The outer area begins and ends beyond the other, on each side by less than the length of a tile. -/
structure SurroundsClosely (outer a : Area) (l : Layout) : Prop where
  minX_le : outer.minX.toInt ≤ a.minX.toInt
  minX_lt : a.minX.toInt < outer.minX.toInt + l.width.toNat
  le_maxX : a.maxX ≤ outer.maxX
  maxX_lt : outer.maxX < a.maxX + l.width.toNat
  minY_le : outer.minY.toInt ≤ a.minY.toInt
  minY_lt : a.minY.toInt < outer.minY.toInt + l.depth.toNat
  le_maxY : a.maxY ≤ outer.maxY
  maxY_lt : outer.maxY < a.maxY + l.depth.toNat

theorem SurroundsClosely.containsArea {outer a : Area} {l : Layout}
    (h : outer.SurroundsClosely a l) : outer.containsArea a = true := by
  simp [Area.containsArea, h.minX_le, h.minY_le, h.le_maxX, h.le_maxY]

end Area

namespace Grid

/-! ### One axis -/

section Axis

variable {n lo hi d : Int}

/-- A point is between two parts as its quotient is between their numbers. -/
theorem ediv_between_iff (hd : 0 < d) :
    (lo ≤ n / d ∧ n / d < hi) ↔ lo * d ≤ n ∧ n < hi * d := by
  rw [Int.le_ediv_iff_mul_le hd, Int.ediv_lt_iff_lt_mul hd]

theorem le_ceilDiv_mul (hd : 0 < d) : n ≤ ceilDiv n d * d := by
  rw [← Int.not_lt, ← lt_ceilDiv_iff hd]
  exact Int.lt_irrefl _

theorem ceilDiv_mul_lt (hd : 0 < d) : ceilDiv n d * d < n + d := by
  have hbefore : ceilDiv n d - 1 < ceilDiv n d := by omega
  rw [lt_ceilDiv_iff hd, Int.sub_mul] at hbefore
  omega

end Axis

/-! ### The extent of any grid -/

variable {g : Grid} {l : Layout} {e a : Area} {x z : Int}

/-- The rectangle of the tiles begins at 32-bit coordinates, and its sides are 32-bit words. -/
structure Bounded (g : Grid) (l : Layout) : Prop where
  cornerX_mem : g.minX.toInt * l.width.toNat ∈ IntRange.signed32
  cornerZ_mem : g.minZ.toInt * l.depth.toNat ∈ IntRange.signed32
  sideX_mem : (g.width : Int) * l.width.toNat ∈ IntRange.unsigned32
  sideZ_mem : (g.depth : Int) * l.depth.toNat ∈ IntRange.unsigned32

instance (g : Grid) (l : Layout) : Decidable (g.Bounded l) :=
  decidable_of_iff ((g.minX.toInt * l.width.toNat ∈ IntRange.signed32 ∧
      g.minZ.toInt * l.depth.toNat ∈ IntRange.signed32) ∧
      (g.width : Int) * l.width.toNat ∈ IntRange.unsigned32 ∧
      (g.depth : Int) * l.depth.toNat ∈ IntRange.unsigned32)
    ⟨fun h => ⟨h.1.1, h.1.2, h.2.1, h.2.2⟩, fun h => ⟨⟨h.1, h.2⟩, h.3, h.4⟩⟩

/-- The extent is computed, and neither it nor what it is computed from is cut down: the origin of the
first tile is a 64-bit word, the numbers of columns and rows are 32-bit words, and corner and sides are
the exact ones. -/
structure HasExtent (g : Grid) (l : Layout) (e : Area) : Prop where
  extent_eq : g.extent l = .ok e
  originX_mem : Tile.originX ⟨g.minX, g.minZ⟩ l ∈ IntRange.signed64
  originZ_mem : Tile.originZ ⟨g.minX, g.minZ⟩ l ∈ IntRange.signed64
  width_mem : (g.width : Int) ∈ IntRange.unsigned32
  depth_mem : (g.depth : Int) ∈ IntRange.unsigned32
  minX_eq : e.minX.toInt = Tile.originX ⟨g.minX, g.minZ⟩ l
  minY_eq : e.minY.toInt = Tile.originZ ⟨g.minX, g.minZ⟩ l
  width_eq : e.width.toNat = g.width * l.width.toNat
  height_eq : e.height.toNat = g.depth * l.depth.toNat

theorem extent_eq_ok_iff : g.extent l = .ok e ↔
    (g.width : Int) * l.width.toNat ∈ IntRange.unsigned32 ∧
      (g.depth : Int) * l.depth.toNat ∈ IntRange.unsigned32 ∧
      e = {
        minX := Int32.ofInt (Tile.originX ⟨g.minX, g.minZ⟩ l)
        minY := Int32.ofInt (Tile.originZ ⟨g.minX, g.minZ⟩ l)
        width := UInt32.ofNat ((g.width : Int) * l.width.toNat).toNat
        height := UInt32.ofNat ((g.depth : Int) * l.depth.toNat).toNat } := by
  unfold extent
  by_cases hx : (g.width : Int) * l.width.toNat ∈ IntRange.unsigned32
  · by_cases hz : (g.depth : Int) * l.depth.toNat ∈ IntRange.unsigned32
    · rw [IntRange.mul_of_mem hx, IntRange.mul_of_mem hz, and_iff_right hx, and_iff_right hz]
      exact ⟨fun h => (Except.ok.inj h).symm, fun h => congrArg Except.ok h.symm⟩
    · rw [IntRange.mul_of_mem hx, IntRange.mul, IntRange.check_of_not_mem hz]
      exact iff_of_false nofun fun h => hz h.2.1
  · rw [IntRange.mul, IntRange.check_of_not_mem hx]
    exact iff_of_false nofun fun h => hx h.1

/-- The last column ends where the extent does. -/
theorem HasExtent.maxX_eq (h : g.HasExtent l e) : e.maxX = g.maxX.toInt * l.width.toNat := by
  rw [Area.maxX, h.minX_eq, h.width_eq, g.maxX_eq, Int.add_mul, Int.natCast_mul]
  rfl

theorem HasExtent.maxY_eq (h : g.HasExtent l e) : e.maxY = g.maxZ.toInt * l.depth.toNat := by
  rw [Area.maxY, h.minY_eq, h.height_eq, g.maxZ_eq, Int.add_mul, Int.natCast_mul]
  rfl

theorem Bounded.exists_extent (h : g.Bounded l) : ∃ e, g.HasExtent l e := by
  have hcolumns := g.width_le
  have hrows := g.depth_le
  have hside {n : Nat} {size : UInt32} (hmem : (n : Int) * size.toNat ∈ IntRange.unsigned32) :
      (UInt32.ofNat ((n : Int) * size.toNat).toNat).toNat = n * size.toNat :=
    Int.ofNat.inj (IntRange.toNat_ofNat_toNat hmem)
  exact ⟨_, {
    extent_eq := extent_eq_ok_iff.2 ⟨h.sideX_mem, h.sideZ_mem, rfl⟩
    originX_mem := (Tile.originX_mem _ l).1
    originZ_mem := (Tile.originZ_mem _ l).1
    width_mem := IntRange.mem_unsigned32.2 (by omega)
    depth_mem := IntRange.mem_unsigned32.2 (by omega)
    minX_eq := IntRange.toInt_ofInt h.cornerX_mem
    minY_eq := IntRange.toInt_ofInt h.cornerZ_mem
    width_eq := hside h.sideX_mem
    height_eq := hside h.sideZ_mem }⟩

/-- A point of the extent is one whose quotients are the column and the row of a tile of the grid. -/
theorem HasExtent.contains_iff_quotients (h : g.HasExtent l e) :
    e.contains x z = true ↔
      (g.minX.toInt ≤ x / l.width.toNat ∧ x / l.width.toNat < g.maxX.toInt) ∧
        g.minZ.toInt ≤ z / l.depth.toNat ∧ z / l.depth.toNat < g.maxZ.toInt := by
  rw [Area.contains_iff, h.maxX_eq, h.maxY_eq, h.minX_eq, h.minY_eq,
    ediv_between_iff l.toInt_width_pos, ediv_between_iff l.toInt_depth_pos, and_assoc]
  rfl

theorem HasExtent.contains_iff (h : g.HasExtent l e) :
    e.contains x z = true ↔ ∃ t, g.contains t = true ∧ t.Covers l x z := by
  rw [h.contains_iff_quotients]
  constructor
  · rintro ⟨⟨hminX, hmaxX⟩, hminZ, hmaxZ⟩
    -- The quotients lie between the corners of the grid, so they are words and name a tile.
    have hcovers := Tile.containing_covers (IntRange.mem_between hminX hmaxX)
      (IntRange.mem_between hminZ hmaxZ)
    obtain ⟨hx, hz⟩ := Tile.covers_iff.1 hcovers
    rw [hx] at hminX hmaxX
    rw [hz] at hminZ hmaxZ
    exact ⟨_, Grid.contains_iff.2 ⟨hminX, hmaxX, hminZ, hmaxZ⟩, hcovers⟩
  · rintro ⟨t, ht, hcovers⟩
    obtain ⟨hx, hz⟩ := Tile.covers_iff.1 hcovers
    obtain ⟨hminX, hmaxX, hminZ, hmaxZ⟩ := Grid.contains_iff.1 ht
    rw [hx, hz]
    exact ⟨⟨hminX, hmaxX⟩, hminZ, hmaxZ⟩

theorem HasExtent.contains_iff_containing (h : g.HasExtent l e)
    (hx : x / l.width.toNat ∈ IntRange.signed32) (hz : z / l.depth.toNat ∈ IntRange.signed32) :
    e.contains x z = true ↔ g.contains (.containing x z l) = true := by
  have hcovers := Tile.containing_covers hx hz
  rw [h.contains_iff]
  constructor
  · rintro ⟨t, ht, hcovers'⟩
    rwa [hcovers.unique hcovers']
  · intro ht
    exact ⟨_, ht, hcovers⟩

/-- The bounds are the ones that there have to be. A grid with tiles has an extent that is right about
every point only if it is bounded. -/
theorem bounded_iff (hgrid : g.isEmpty = false) : g.Bounded l ↔
    ∃ e, g.extent l = .ok e ∧
      ∀ x z, e.contains x z = true ↔ ∃ t, g.contains t = true ∧ t.Covers l x z := by
  constructor
  · intro h
    obtain ⟨e, he⟩ := h.exists_extent
    exact ⟨e, he.extent_eq, fun x z => he.contains_iff⟩
  · rintro ⟨e, hextent, hpoints⟩
    obtain ⟨hsideX, hsideZ, -⟩ := extent_eq_ok_iff.1 hextent
    obtain ⟨hcolumns, hrows⟩ :=
      not_not.1 (mt isEmpty_iff_sides.2 (ne_of_eq_of_ne hgrid Bool.false_ne_true))
    have hwidth := l.toInt_width_pos
    have hdepth := l.toInt_depth_pos
    -- The origin of the first tile is in the extent,
    have horigin : e.contains (Tile.originX ⟨g.minX, g.minZ⟩ l) (Tile.originZ ⟨g.minX, g.minZ⟩ l)
        = true :=
      (hpoints _ _).2 ⟨⟨g.minX, g.minZ⟩,
        Grid.contains_iff.2 ⟨Int.le_refl _, hcolumns, Int.le_refl _, hrows⟩,
        Int.le_refl _, by omega, Int.le_refl _, by omega⟩
    obtain ⟨hleft, hright, htop, hbottom⟩ := Area.contains_iff.1 horigin
    -- and the first point of the extent lies under a tile, none of which begins before that.
    have hcorner : e.contains e.minX.toInt e.minY.toInt = true :=
      Area.contains_iff.2 ⟨Int.le_refl _, by omega, Int.le_refl _, by omega⟩
    obtain ⟨t, ht, hcovers⟩ := (hpoints _ _).1 hcorner
    obtain ⟨hminX, -, hminZ, -⟩ := Grid.contains_iff.1 ht
    have hbeginX : Tile.originX ⟨g.minX, g.minZ⟩ l ≤ t.originX l :=
      Int.mul_le_mul_of_nonneg_right hminX (by omega)
    have hbeginZ : Tile.originZ ⟨g.minX, g.minZ⟩ l ≤ t.originZ l :=
      Int.mul_le_mul_of_nonneg_right hminZ (by omega)
    have hx : Tile.originX ⟨g.minX, g.minZ⟩ l = e.minX.toInt :=
      Int.le_antisymm (Int.le_trans hbeginX hcovers.originX_le) hleft
    have hz : Tile.originZ ⟨g.minX, g.minZ⟩ l = e.minY.toInt :=
      Int.le_antisymm (Int.le_trans hbeginZ hcovers.originZ_le) htop
    rw [Tile.originX] at hx
    rw [Tile.originZ] at hz
    exact ⟨hx ▸ IntRange.toInt_mem e.minX, hz ▸ IntRange.toInt_mem e.minY, hsideX, hsideZ⟩

/-! ### The extent of a covering grid -/

theorem HasExtent.surroundsClosely (h : (covering a l).HasExtent l e) (harea : a.isEmpty = false)
    (hfitsX : ceilDiv a.maxX l.width.toNat ∈ IntRange.signed32)
    (hfitsZ : ceilDiv a.maxY l.depth.toNat ∈ IntRange.signed32) : e.SurroundsClosely a l := by
  have hminX : e.minX.toInt = a.minX.toInt / l.width.toNat * l.width.toNat := by
    rw [h.minX_eq, Tile.originX, toInt_minX_covering]
  have hminY : e.minY.toInt = a.minY.toInt / l.depth.toNat * l.depth.toNat := by
    rw [h.minY_eq, Tile.originZ, toInt_minZ_covering]
  have hmaxX : e.maxX = ceilDiv a.maxX l.width.toNat * l.width.toNat := by
    rw [h.maxX_eq, toInt_maxX_covering harea hfitsX]
  have hmaxY : e.maxY = ceilDiv a.maxY l.depth.toNat * l.depth.toNat := by
    rw [h.maxY_eq, toInt_maxZ_covering harea hfitsZ]
  have hwidth := l.toInt_width_pos
  have hdepth := l.toInt_depth_pos
  exact {
    minX_le := hminX ▸ Int.ediv_mul_le _ (Int.ne_of_gt hwidth)
    minX_lt := by
      have hlt := Int.lt_ediv_add_one_mul_self a.minX.toInt hwidth
      rw [Int.add_mul] at hlt
      omega
    le_maxX := hmaxX ▸ le_ceilDiv_mul hwidth
    maxX_lt := hmaxX ▸ ceilDiv_mul_lt hwidth
    minY_le := hminY ▸ Int.ediv_mul_le _ (Int.ne_of_gt hdepth)
    minY_lt := by
      have hlt := Int.lt_ediv_add_one_mul_self a.minY.toInt hdepth
      rw [Int.add_mul] at hlt
      omega
    le_maxY := hmaxY ▸ le_ceilDiv_mul hdepth
    maxY_lt := hmaxY ▸ ceilDiv_mul_lt hdepth }

/-- The extent of a grid is the union of its tiles. A grid within bounds has one, computed without loss,
and a world point lies in it if it lies under a tile of the grid; for a point whose quotients are words,
if the tile that it is divided into is in the grid. The bounds are the ones that there have to be: a grid
with tiles has an extent that is right about every point only if it is bounded. So the extent of the grid
that covers an area has all of the area, and reaches beyond it by less than a tile on each side. -/
theorem extent_is_union_of_tiles (l : Layout) :
    (∀ g : Grid, g.Bounded l → ∃ e, g.HasExtent l e ∧
      (∀ x z, e.contains x z = true ↔ ∃ t, g.contains t = true ∧ t.Covers l x z) ∧
      ∀ x z : Int, x / l.width.toNat ∈ IntRange.signed32 → z / l.depth.toNat ∈ IntRange.signed32 →
        (e.contains x z = true ↔ g.contains (.containing x z l) = true)) ∧
    (∀ g : Grid, g.isEmpty = false → (g.Bounded l ↔ ∃ e, g.extent l = .ok e ∧
      ∀ x z, e.contains x z = true ↔ ∃ t, g.contains t = true ∧ t.Covers l x z)) ∧
    ∀ a : Area, a.isEmpty = false → ceilDiv a.maxX l.width.toNat ∈ IntRange.signed32 →
      ceilDiv a.maxY l.depth.toNat ∈ IntRange.signed32 → (covering a l).Bounded l →
      ∃ e, (covering a l).HasExtent l e ∧ e.containsArea a = true ∧ e.SurroundsClosely a l := by
  refine ⟨fun g hbounded => ?_, fun g => bounded_iff, ?_⟩
  · obtain ⟨e, he⟩ := hbounded.exists_extent
    exact ⟨e, he, fun x z => he.contains_iff, fun x z hx hz => he.contains_iff_containing hx hz⟩
  · intro a harea hfitsX hfitsZ hbounded
    obtain ⟨e, he⟩ := hbounded.exists_extent
    have hclose := he.surroundsClosely harea hfitsX hfitsZ
    exact ⟨e, he, hclose.containsArea, hclose⟩

/-- As far to the left as an extent can begin, and nearly as wide as it can be. -/
private def farGrid : Grid := ofCorners (-536870912) (-1) 536870911 2

/-- An area around the world origin, whose only edge that is one of tiles is the last along z. -/
private def aroundOrigin : Area := ⟨-6, -3, 11, 8⟩

theorem extent_is_union_of_tiles_farGrid :
    farGrid.Bounded (Layout.ofFootprint 4 5) ∧
    (∃ e, farGrid.extent (Layout.ofFootprint 4 5) = .ok e ∧ e.contains (-2147483648) 9 = true ∧
      e.contains 2147483644 9 = false) ∧
    aroundOrigin.isEmpty = false ∧
    ceilDiv aroundOrigin.maxX 4 ∈ IntRange.signed32 ∧
    ceilDiv aroundOrigin.maxY 5 ∈ IntRange.signed32 ∧
    (covering aroundOrigin (Layout.ofFootprint 4 5)).Bounded (Layout.ofFootprint 4 5) ∧
    ∃ e, (covering aroundOrigin (Layout.ofFootprint 4 5)).extent (Layout.ofFootprint 4 5) = .ok e ∧
      e.containsArea aroundOrigin = true ∧ e.maxX < aroundOrigin.maxX + 4 := by
  obtain ⟨hgrids, -, hareas⟩ := extent_is_union_of_tiles (Layout.ofFootprint 4 5)
  have hfar : farGrid.Bounded (Layout.ofFootprint 4 5) := by decide
  obtain ⟨e, he, -, hpoint⟩ := hgrids farGrid hfar
  have hfirst := (hpoint (-2147483648) 9 (by decide) (by decide)).2 (by decide)
  have hbeyond := mt (hpoint 2147483644 9 (by decide) (by decide)).1 (by decide)
  have harea : aroundOrigin.isEmpty = false := by decide
  have hfitsX : ceilDiv aroundOrigin.maxX 4 ∈ IntRange.signed32 := by decide
  have hfitsZ : ceilDiv aroundOrigin.maxY 5 ∈ IntRange.signed32 := by decide
  have hnear : (covering aroundOrigin (Layout.ofFootprint 4 5)).Bounded (Layout.ofFootprint 4 5) := by
    decide
  obtain ⟨e', he', hall, hclose⟩ := hareas aroundOrigin harea hfitsX hfitsZ hnear
  exact ⟨hfar, ⟨e, he.extent_eq, hfirst, Bool.eq_false_iff.2 hbeyond⟩, harea, hfitsX, hfitsZ, hnear,
    e', he'.extent_eq, hall, hclose.maxX_lt⟩

end Grid

end WorldMap
