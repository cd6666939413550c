import WorldMap.Proofs.Geometry.Covering
/-!
# Grids without a spare tile

A grid is tight on an area if every point of the area lies under one of its tiles and no column or
row of them can be taken out. As a grid is all combinations of its columns and rows, and so is an
area of its points, a tight grid has no spare tile either: it has the tiles that share a point with
the area, and no other (`Grid.tight_iff`). `Grid.covering` is the tight grid of an area that has
points, as long as its corners fit in 32 bits.
-/

namespace WorldMap

variable {a : Area} {l : Layout} {g : Grid} {t u : Tile} {x x' z z' : Int}

/-- What lies between two words is one. -/
theorem IntRange.mem_between {n : Int} {lo hi : Int32} (hlo : lo.toInt ≤ n) (hhi : n < hi.toInt) :
    n ∈ signed32 := by
  have hlow := mem_signed32.1 (toInt_mem lo)
  have hhigh := mem_signed32.1 (toInt_mem hi)
  rw [mem_signed32]
  omega

namespace Area

/-- A point of the area has its column from one point and its row from another. -/
theorem contains_mix (h : a.contains x z = true) (h' : a.contains x' z' = true) :
    a.contains x z' = true := by
  obtain ⟨hx, hx', -, -⟩ := contains_iff.1 h
  obtain ⟨-, -, hz, hz'⟩ := contains_iff.1 h'
  exact contains_iff.2 ⟨hx, hx', hz, hz'⟩

theorem exists_contains (harea : a.isEmpty = false) : ∃ x z, a.contains x z = true :=
  ⟨a.minX.toInt, a.minY.toInt, contains_iff.2
    ⟨Int.le_refl _, Grid.minX_lt_maxX harea, Int.le_refl _, Grid.minY_lt_maxY harea⟩⟩

end Area

namespace Tile

/-- The footprint of the tile has a point of the area. -/
def Meets (t : Tile) (l : Layout) (a : Area) : Prop :=
  ∃ x z, a.contains x z = true ∧ t.Covers l x z

theorem Covers.toInt_x_eq (h : t.Covers l x z) (h' : u.Covers l x z') :
    t.x.toInt = u.x.toInt := by
  rw [← (covers_iff.1 h).1, (covers_iff.1 h').1]

theorem Covers.toInt_z_eq (h : t.Covers l x z) (h' : u.Covers l x' z) :
    t.z.toInt = u.z.toInt := by
  rw [← (covers_iff.1 h).2, (covers_iff.1 h').2]

/-- A point lies under one tile only. -/
theorem Covers.unique (h : t.Covers l x z) (h' : u.Covers l x z) : t = u :=
  eq_iff.2 ⟨h.toInt_x_eq h', h.toInt_z_eq h'⟩

/-- A tile covers a point if it is in the column of one tile and in the row of another that do. -/
theorem Covers.mix (h : t.Covers l x z) (h' : u.Covers l x' z') {s : Tile}
    (hx : s.x.toInt = t.x.toInt) (hz : s.z.toInt = u.z.toInt) : s.Covers l x z' :=
  covers_iff.2 ⟨hx ▸ (covers_iff.1 h).1, hz ▸ (covers_iff.1 h').2⟩

end Tile

namespace Grid

/-- Every point of the area lies under a tile of the grid that is left. -/
def CoversBy (g : Grid) (l : Layout) (a : Area) (left : Tile → Prop) : Prop :=
  ∀ x z, a.contains x z = true → ∃ t, g.contains t = true ∧ left t ∧ t.Covers l x z

/-- The grid covers the area, and does not without one of its columns or rows. -/
structure Tight (g : Grid) (l : Layout) (a : Area) : Prop where
  covers : g.CoversBy l a fun _ => True
  columns : ∀ c, g.minX.toInt ≤ c → c < g.maxX.toInt → ¬ g.CoversBy l a fun t => t.x.toInt ≠ c
  rows : ∀ c, g.minZ.toInt ≤ c → c < g.maxZ.toInt → ¬ g.CoversBy l a fun t => t.z.toInt ≠ c

/-- A grid that covers an area has a tile over a point that is lost with the tiles taken out. -/
theorem CoversBy.exists_lost {left : Tile → Prop} (h : g.CoversBy l a fun _ => True)
    (hnot : ¬ g.CoversBy l a left) :
    ∃ x z, ∃ u : Tile, a.contains x z = true ∧ u.Covers l x z ∧ ¬ left u := by
  simp only [CoversBy, not_forall] at hnot
  obtain ⟨x, z, hpoint, hnone⟩ := hnot
  obtain ⟨u, hu, -, hcovers⟩ := h x z hpoint
  exact ⟨x, z, u, hpoint, hcovers, fun hleft => hnone ⟨u, hu, hleft, hcovers⟩⟩

/-- A tile that is needed is not made up for by tiles that share no point with it. -/
theorem not_coversBy {left : Tile → Prop} (ht : t.Meets l a)
    (hleft : ∀ (u : Tile) (x z : Int), t.Covers l x z → u.Covers l x z → ¬ left u) :
    ¬ g.CoversBy l a left := by
  obtain ⟨x, z, hpoint, hcovers⟩ := ht
  intro hwithout
  obtain ⟨u, -, hu, hcovers'⟩ := hwithout x z hpoint
  exact hleft u x z hcovers hcovers' hu

namespace Tight

/-- Every tile of a tight grid is needed, and no tile that is needed is missing. -/
theorem contains_iff_meets (h : g.Tight l a) : g.contains t = true ↔ t.Meets l a := by
  constructor
  · intro ht
    obtain ⟨hminX, hmaxX, hminZ, hmaxZ⟩ := contains_iff.1 ht
    obtain ⟨x, z, u, hpoint, hcovers, hcolumn⟩ := h.covers.exists_lost (h.columns _ hminX hmaxX)
    obtain ⟨x', z', u', hpoint', hcovers', hrow⟩ := h.covers.exists_lost (h.rows _ hminZ hmaxZ)
    exact ⟨x, z', Area.contains_mix hpoint hpoint',
      hcovers.mix hcovers' (not_not.1 hcolumn).symm (not_not.1 hrow).symm⟩
  · rintro ⟨x, z, hpoint, hcovers⟩
    obtain ⟨u, hu, -, hcovers'⟩ := h.covers x z hpoint
    rwa [hcovers.unique hcovers']

/-- A grid is tight if its tiles are those that are needed, and every point has one. -/
theorem of_contains_iff (hg : ∀ t, g.contains t = true ↔ t.Meets l a)
    (htile : ∀ x z, a.contains x z = true → ∃ t : Tile, t.Covers l x z)
    (hpoint : ∃ x z, a.contains x z = true) : g.Tight l a := by
  have hcovers : g.CoversBy l a fun _ => True := by
    intro x z hpoint
    obtain ⟨t, ht⟩ := htile x z hpoint
    exact ⟨t, (hg t).2 ⟨x, z, hpoint, ht⟩, trivial, ht⟩
  obtain ⟨x, z, hpoint⟩ := hpoint
  obtain ⟨t, ht, -, -⟩ := hcovers x z hpoint
  obtain ⟨hminX, hmaxX, hminZ, hmaxZ⟩ := contains_iff.1 ht
  -- the tile that a column shares with the row of `t`, or a row with the column of `t`, is needed
  refine ⟨hcovers, fun c hmin hmax => ?_, fun c hmin hmax => ?_⟩
  · have hc : (Int32.ofInt c).toInt = c := IntRange.toInt_ofInt (IntRange.mem_between hmin hmax)
    have hneeded := (hg ⟨Int32.ofInt c, t.z⟩).1
      (contains_iff.2 ⟨hc.symm ▸ hmin, hc.symm ▸ hmax, hminZ, hmaxZ⟩)
    exact not_coversBy hneeded fun u x z h h' hother => hother ((h'.toInt_x_eq h).trans hc)
  · have hc : (Int32.ofInt c).toInt = c := IntRange.toInt_ofInt (IntRange.mem_between hmin hmax)
    have hneeded := (hg ⟨t.x, Int32.ofInt c⟩).1
      (contains_iff.2 ⟨hminX, hmaxX, hc.symm ▸ hmin, hc.symm ▸ hmax⟩)
    exact not_coversBy hneeded fun u x z h h' hother => hother ((h'.toInt_z_eq h).trans hc)

end Tight

/-- What it takes for a grid to have the tiles that an area needs and no other. -/
theorem tight_iff (harea : a.isEmpty = false)
    (hfitsX : ceilDiv a.maxX l.width.toNat ∈ IntRange.signed32)
    (hfitsZ : ceilDiv a.maxY l.depth.toNat ∈ IntRange.signed32) :
    g.Tight l a ↔ ∀ t, g.contains t = true ↔ t.Meets l a := by
  constructor
  · intro h t
    exact h.contains_iff_meets
  · intro hg
    apply Tight.of_contains_iff hg _ (Area.exists_contains harea)
    intro x z hpoint
    exact ⟨_, (containing_mem_covering harea hfitsX hfitsZ hpoint).2⟩

/-- The grid that covers an area has exactly the tiles that are needed. No number on the way to it is
cut down: it is computed in 64 bits without a fault, and the corners fit in 32. It has the tiles whose
footprint shares a point with the area and no other; and what is the same, for this grid as for any,
every point of the area lies under one of its tiles, and no column or row can be taken out. -/
theorem covering_has_needed_tiles (a : Area) (l : Layout) (harea : a.isEmpty = false)
    (hfitsX : ceilDiv a.maxX l.width.toNat ∈ IntRange.signed32)
    (hfitsZ : ceilDiv a.maxY l.depth.toNat ∈ IntRange.signed32) :
    cover a l = .ok (covering a l) ∧
    ((covering a l).minX.toInt = a.minX.toInt / l.width.toNat ∧
      (covering a l).minZ.toInt = a.minY.toInt / l.depth.toNat ∧
      (covering a l).maxX.toInt = ceilDiv a.maxX l.width.toNat ∧
      (covering a l).maxZ.toInt = ceilDiv a.maxY l.depth.toNat) ∧
    (∀ t, (covering a l).contains t = true ↔ ∃ x z, a.contains x z = true ∧ t.Covers l x z) ∧
    (covering a l).Tight l a ∧
    ∀ g : Grid, g.Tight l a ↔
      ∀ t, g.contains t = true ↔ ∃ x z, a.contains x z = true ∧ t.Covers l x z := by
  have hcontains : ∀ t, (covering a l).contains t = true ↔ t.Meets l a :=
    fun t => contains_covering_iff harea hfitsX hfitsZ
  exact ⟨cover_eq a l,
    ⟨toInt_minX_covering a l, toInt_minZ_covering a l, toInt_maxX_covering harea hfitsX,
      toInt_maxZ_covering harea hfitsZ⟩,
    hcontains, (tight_iff harea hfitsX hfitsZ).2 hcontains,
    fun g => tight_iff harea hfitsX hfitsZ⟩

/-- Around the world origin; of its edges only the last one along z is an edge of tiles of four by
five. -/
private def straddlingArea : Area := ⟨-6, -3, 11, 8⟩

/-- The corner tiles are needed, and those of the next column and of the next row are not. -/
theorem covering_has_needed_tiles_straddlingArea :
    straddlingArea.isEmpty = false ∧
    ceilDiv straddlingArea.maxX 4 ∈ IntRange.signed32 ∧
    ceilDiv straddlingArea.maxY 5 ∈ IntRange.signed32 ∧
    (covering straddlingArea (Layout.ofFootprint 4 5)).Tight (Layout.ofFootprint 4 5)
      straddlingArea ∧
    (Tile.Meets ⟨-2, -1⟩ (Layout.ofFootprint 4 5) straddlingArea ∧
      Tile.Meets ⟨1, 0⟩ (Layout.ofFootprint 4 5) straddlingArea) ∧
    ¬ Tile.Meets ⟨2, 0⟩ (Layout.ofFootprint 4 5) straddlingArea ∧
    ¬ Tile.Meets ⟨1, 1⟩ (Layout.ofFootprint 4 5) straddlingArea := by
  have harea : straddlingArea.isEmpty = false := by decide
  have hfitsX : ceilDiv straddlingArea.maxX 4 ∈ IntRange.signed32 := by decide
  have hfitsZ : ceilDiv straddlingArea.maxY 5 ∈ IntRange.signed32 := by decide
  obtain ⟨-, -, hmeets, htight, -⟩ :=
    covering_has_needed_tiles straddlingArea (Layout.ofFootprint 4 5) harea hfitsX hfitsZ
  exact ⟨harea, hfitsX, hfitsZ, htight, ⟨(hmeets _).1 (by decide), (hmeets _).1 (by decide)⟩,
    fun h => absurd ((hmeets _).2 h) (by decide), fun h => absurd ((hmeets _).2 h) (by decide)⟩

end Grid

end WorldMap
