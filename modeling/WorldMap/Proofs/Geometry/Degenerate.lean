import WorldMap.Proofs.Geometry.Cursor
import WorldMap.Proofs.Geometry.Tightness
/-!
# The grid of an area without points

On an axis where an area has no length, both corners of its grid are quotients of the same number, one
rounded down and one rounded up. They differ by one unless the number is a multiple of the tile size
(`ediv_lt_ceilDiv_self_iff`). So an area without points has a grid without tiles if it lies along an edge
of tiles, and otherwise the tiles that it cuts in two, none of which it needs.

A corner that does not fit in 32 bits is cut down to one that is not above the other corner, and leaves
a grid without tiles whatever the area is.
-/

namespace WorldMap

namespace Tile

/-- The tile reaches across the area: on both axes it begins before the area ends and ends after the
area begins. An area without points is a line or a point, and lies inside of the tile then. -/
structure Crosses (t : Tile) (l : Layout) (a : Area) : Prop where
  originX_lt : t.originX l < a.maxX
  lt_endX : a.minX.toInt < t.originX l + l.width.toNat
  originZ_lt : t.originZ l < a.maxY
  lt_endZ : a.minY.toInt < t.originZ l + l.depth.toNat

end Tile

namespace Grid

/-! ### One axis -/

section Axis

variable {n lo hi d length : Int} {corner : Int32} {size : UInt32}

theorem ediv_lt_ceilDiv_self_iff (hd : 0 < d) : n / d < ceilDiv n d ↔ ¬ d ∣ n := by
  have hsplit := Int.ediv_mul_add_emod n d
  have hrest := Int.emod_nonneg n (Int.ne_of_gt hd)
  rw [lt_ceilDiv_iff hd, Int.dvd_iff_emod_eq_zero]
  omega

theorem ediv_le_ceilDiv (hd : 0 < d) (hle : lo ≤ hi) : lo / d ≤ ceilDiv hi d := by
  have hlow := Int.ediv_mul_le lo (Int.ne_of_gt hd)
  rw [← Int.sub_one_lt_iff, lt_ceilDiv_iff hd, Int.sub_mul]
  omega

/-- Rounding up comes to at most as many parts more as there are points in between, and one. -/
theorem ceilDiv_le_add (hd : 0 < d) (hlength : 0 ≤ length) (hhi : hi ≤ lo + length) :
    ceilDiv hi d ≤ lo / d + 1 + length := by
  have hlow := Int.lt_ediv_add_one_mul_self lo hd
  have hscaled : length * 1 ≤ length * d := Int.mul_le_mul_of_nonneg_left hd hlength
  rw [← Int.not_lt, lt_ceilDiv_iff hd, Int.not_lt, Int.add_mul]
  omega

/-- A side has parts unless it has no length and begins where a part does. -/
theorem ediv_lt_ceilDiv_iff (hd : 0 < d) :
    corner.toInt / d < ceilDiv (corner.toInt + size.toNat) d ↔ ¬ (size = 0 ∧ d ∣ corner.toInt) := by
  by_cases hsize : size = 0
  · subst hsize
    rw [and_iff_right rfl, ← ediv_lt_ceilDiv_self_iff hd, UInt32.toNat_zero, Int.natCast_zero,
      Int.add_zero]
  · have hpos := IntRange.toNat_pos hsize
    exact iff_of_true (ediv_lt_ceilDiv hd (by omega)) fun h => hsize h.1

/-- A number just beyond the 32-bit words is cut down to one that is as many below it as there are
words. -/
theorem toInt_ofInt_of_beyond (hbeyond : 2147483647 < n) (hn : n ≤ 6442450943) :
    (Int32.ofInt n).toInt = n - 4294967296 := by
  rw [Int32.toInt_ofInt, Int.bmod_def, Int32.size]
  omega

/-- There is a part between the corners if there is one between the quotients and the upper one has not
been cut down. -/
theorem toInt_corner_lt_iff (hd : 0 < d) :
    (Int32.ofInt (corner.toInt / d)).toInt
        < (Int32.ofInt (ceilDiv (corner.toInt + size.toNat) d)).toInt ↔
      corner.toInt / d < ceilDiv (corner.toInt + size.toNat) d ∧
        ceilDiv (corner.toInt + size.toNat) d ∈ IntRange.signed32 := by
  have hsize := IntRange.mem_unsigned32.1 (IntRange.toNat_mem size)
  have hlower := ediv_mem hd (by decide) (by decide) (IntRange.toInt_mem corner)
  have hle : corner.toInt / d ≤ ceilDiv (corner.toInt + size.toNat) d :=
    ediv_le_ceilDiv hd (by omega)
  have hnear : ceilDiv (corner.toInt + size.toNat) d ≤ corner.toInt / d + 1 + size.toNat :=
    ceilDiv_le_add hd hsize.1 (Int.le_refl _)
  rw [IntRange.toInt_ofInt hlower]
  rw [IntRange.mem_signed32] at hlower
  by_cases hfits : ceilDiv (corner.toInt + size.toNat) d ∈ IntRange.signed32
  · rw [IntRange.toInt_ofInt hfits, and_iff_left hfits]
  · rw [iff_false_right fun h => hfits h.2]
    rw [IntRange.mem_signed32] at hfits
    rw [toInt_ofInt_of_beyond (by omega) (by omega)]
    omega

/-- The parts between the corners are those that reach across the side. -/
theorem mem_corners_iff (corner : Int32) (size : UInt32) (t : Int) (hd : 0 < d) :
    ((Int32.ofInt (corner.toInt / d)).toInt ≤ t ∧
        t < max (Int32.ofInt (corner.toInt / d)).toInt
          (Int32.ofInt (ceilDiv (corner.toInt + size.toNat) d)).toInt) ↔
      (t * d < corner.toInt + size.toNat ∧ corner.toInt < t * d + d) ∧
        ceilDiv (corner.toInt + size.toNat) d ∈ IntRange.signed32 := by
  have hlower := IntRange.toInt_ofInt
    (ediv_mem hd (by decide) (by decide) (IntRange.toInt_mem corner))
  have hreach : t * d < corner.toInt + size.toNat ∧ corner.toInt < t * d + d ↔
      t < ceilDiv (corner.toInt + size.toNat) d ∧ corner.toInt / d ≤ t := by
    rw [lt_ceilDiv_iff hd, Int.ediv_le_iff_le_mul hd]
  rw [hreach]
  constructor
  · rintro ⟨hlow, hhigh⟩
    have hlt : (Int32.ofInt (corner.toInt / d)).toInt
        < (Int32.ofInt (ceilDiv (corner.toInt + size.toNat) d)).toInt := by omega
    have hfits := ((toInt_corner_lt_iff hd).1 hlt).2
    rw [IntRange.toInt_ofInt hfits] at hhigh
    exact ⟨by omega, hfits⟩
  · rintro ⟨⟨hhigh, hlow⟩, hfits⟩
    rw [IntRange.toInt_ofInt hfits, hlower]
    omega

end Axis

/-! ### Both axes -/

variable {minX minZ maxX maxZ : Int32} {a : Area} {l : Layout} {g : Grid} {t : Tile}

theorem toInt_maxX_ofCorners :
    (ofCorners minX minZ maxX maxZ).maxX.toInt = max minX.toInt maxX.toInt := by
  by_cases hle : minX.toInt ≤ maxX.toInt
  · rw [maxX_ofCorners hle, Int.max_eq_right hle]
  · have hmin : (ofCorners minX minZ maxX maxZ).maxX = minX := if_neg hle
    rw [hmin, Int.max_eq_left (by omega)]

theorem toInt_maxZ_ofCorners :
    (ofCorners minX minZ maxX maxZ).maxZ.toInt = max minZ.toInt maxZ.toInt := by
  by_cases hle : minZ.toInt ≤ maxZ.toInt
  · rw [maxZ_ofCorners hle, Int.max_eq_right hle]
  · have hmin : (ofCorners minX minZ maxX maxZ).maxZ = minZ := if_neg hle
    rw [hmin, Int.max_eq_left (by omega)]

theorem minX_lt_maxX_ofCorners_iff :
    (ofCorners minX minZ maxX maxZ).minX.toInt < (ofCorners minX minZ maxX maxZ).maxX.toInt ↔
      minX.toInt < maxX.toInt := by
  rw [toInt_maxX_ofCorners]
  change minX.toInt < _ ↔ _
  omega

theorem minZ_lt_maxZ_ofCorners_iff :
    (ofCorners minX minZ maxX maxZ).minZ.toInt < (ofCorners minX minZ maxX maxZ).maxZ.toInt ↔
      minZ.toInt < maxZ.toInt := by
  rw [toInt_maxZ_ofCorners]
  change minZ.toInt < _ ↔ _
  omega

/-- When a covering grid has columns. -/
theorem minX_lt_maxX_covering_iff (a : Area) (l : Layout) :
    (covering a l).minX.toInt < (covering a l).maxX.toInt ↔
      ¬ (a.width = 0 ∧ (l.width.toNat : Int) ∣ a.minX.toInt) ∧
        ceilDiv a.maxX l.width.toNat ∈ IntRange.signed32 := by
  rw [← ediv_lt_ceilDiv_iff l.toInt_width_pos]
  exact minX_lt_maxX_ofCorners_iff.trans (toInt_corner_lt_iff l.toInt_width_pos)

/-- When a covering grid has rows. -/
theorem minZ_lt_maxZ_covering_iff (a : Area) (l : Layout) :
    (covering a l).minZ.toInt < (covering a l).maxZ.toInt ↔
      ¬ (a.height = 0 ∧ (l.depth.toNat : Int) ∣ a.minY.toInt) ∧
        ceilDiv a.maxY l.depth.toNat ∈ IntRange.signed32 := by
  rw [← ediv_lt_ceilDiv_iff l.toInt_depth_pos]
  exact minZ_lt_maxZ_ofCorners_iff.trans (toInt_corner_lt_iff l.toInt_depth_pos)

theorem isEmpty_iff_sides :
    g.isEmpty = true ↔ ¬ (g.minX.toInt < g.maxX.toInt ∧ g.minZ.toInt < g.maxZ.toInt) := by
  rw [isEmpty_iff, size, Nat.mul_eq_zero, width, depth]
  omega

theorem isEmpty_iff_tiles : g.isEmpty = true ↔ g.tiles = [] := by
  rw [isEmpty_iff, ← length_tiles, List.length_eq_zero_iff]

/-- The first call to the cursor of a grid gives nothing only if there is nothing. -/
theorem isEmpty_iff_call : g.isEmpty = true ↔ g.cursor.call = .ok (none, g.cursor) := by
  have hstands := Cursor.Stands.cursor g
  rw [isEmpty_iff]
  constructor
  · intro hsize
    rw [← hsize] at hstands
    exact hstands.call_of_end
  · intro hcall
    by_contra hsize
    have hpos : 0 < g.size := Nat.pos_of_ne_zero hsize
    obtain ⟨c, hcall', -⟩ := hstands.exists_call hpos
    rw [hcall', getElem?_tiles hpos] at hcall
    cases hcall

/-- A covering grid has tiles unless the area has no length on an axis where it lies along an edge, or
a corner of the grid does not fit in 32 bits. -/
theorem isEmpty_covering_iff (a : Area) (l : Layout) :
    (covering a l).isEmpty = true ↔
      (a.width = 0 ∧ (l.width.toNat : Int) ∣ a.minX.toInt) ∨
      (a.height = 0 ∧ (l.depth.toNat : Int) ∣ a.minY.toInt) ∨
      ceilDiv a.maxX l.width.toNat ∉ IntRange.signed32 ∨
      ceilDiv a.maxY l.depth.toNat ∉ IntRange.signed32 := by
  rw [isEmpty_iff_sides, minX_lt_maxX_covering_iff, minZ_lt_maxZ_covering_iff]
  tauto

theorem contains_covering_iff_crosses :
    (covering a l).contains t = true ↔ t.Crosses l a ∧
      ceilDiv a.maxX l.width.toNat ∈ IntRange.signed32 ∧
      ceilDiv a.maxY l.depth.toNat ∈ IntRange.signed32 := by
  have hcolumn := mem_corners_iff a.minX a.width t.x.toInt l.toInt_width_pos
  have hrow := mem_corners_iff a.minY a.height t.z.toInt l.toInt_depth_pos
  rw [contains_iff, covering, toInt_maxX_ofCorners, toInt_maxZ_ofCorners, ← and_assoc]
  refine (and_congr hcolumn hrow).trans ?_
  constructor
  · rintro ⟨⟨⟨hleft, hright⟩, hfitsX⟩, ⟨htop, hbottom⟩, hfitsZ⟩
    exact ⟨⟨hleft, hright, htop, hbottom⟩, hfitsX, hfitsZ⟩
  · rintro ⟨⟨hleft, hright, htop, hbottom⟩, hfitsX, hfitsZ⟩
    exact ⟨⟨⟨hleft, hright⟩, hfitsX⟩, ⟨htop, hbottom⟩, hfitsZ⟩

theorem not_meets_of_isEmpty (harea : a.isEmpty = true) : ¬ t.Meets l a := by
  rintro ⟨x, z, hpoint, -⟩
  obtain ⟨hx, hx', hz, hz'⟩ := Area.contains_iff.1 hpoint
  simp only [Area.isEmpty, Bool.or_eq_true, beq_iff_eq] at harea
  rw [Area.maxX] at hx'
  rw [Area.maxY] at hz'
  rcases harea with hzero | hzero
  · rw [hzero, UInt32.toNat_zero] at hx'
    omega
  · rw [hzero, UInt32.toNat_zero] at hz'
    omega

/-- What covering an area without points comes to. It needs no tile. The grid has no tiles either, and
its cursor gives out none, if the area lies along an edge of tiles on an axis where it has no length, or
if a corner of the grid does not fit in 32 bits; otherwise the grid has all tiles that the area cuts
in two. -/
theorem covering_of_isEmpty (a : Area) (l : Layout) (harea : a.isEmpty = true) :
    (∀ t : Tile, ¬ t.Meets l a) ∧
    ((covering a l).isEmpty = true ↔
      (a.width = 0 ∧ (l.width.toNat : Int) ∣ a.minX.toInt) ∨
      (a.height = 0 ∧ (l.depth.toNat : Int) ∣ a.minY.toInt) ∨
      ceilDiv a.maxX l.width.toNat ∉ IntRange.signed32 ∨
      ceilDiv a.maxY l.depth.toNat ∉ IntRange.signed32) ∧
    ((covering a l).isEmpty = true ↔ (covering a l).tiles = []) ∧
    ((covering a l).isEmpty = true ↔
      (covering a l).cursor.call = .ok (none, (covering a l).cursor)) ∧
    ∀ t, (covering a l).contains t = true ↔ t.Crosses l a ∧
      ceilDiv a.maxX l.width.toNat ∈ IntRange.signed32 ∧
      ceilDiv a.maxY l.depth.toNat ∈ IntRange.signed32 :=
  ⟨fun _ => not_meets_of_isEmpty harea, isEmpty_covering_iff a l, isEmpty_iff_tiles,
    isEmpty_iff_call, fun _ => contains_covering_iff_crosses⟩

/-- Two lines of one hundred points, one inside of a column of tiles and one along its edge. -/
theorem covering_of_isEmpty_lines :
    Area.isEmpty ⟨5, 0, 0, 100⟩ = true ∧
    (covering ⟨5, 0, 0, 100⟩ (Layout.ofFootprint 32 32)).isEmpty = false ∧
    Area.isEmpty ⟨-64, 3, 0, 100⟩ = true ∧
    (covering ⟨-64, 3, 0, 100⟩ (Layout.ofFootprint 32 32)).isEmpty = true ∧
    (covering ⟨-64, 3, 0, 100⟩ (Layout.ofFootprint 32 32)).tiles = [] := by
  obtain ⟨-, hinside, -⟩ := covering_of_isEmpty ⟨5, 0, 0, 100⟩ (Layout.ofFootprint 32 32) (by decide)
  obtain ⟨-, halong, htiles, -⟩ :=
    covering_of_isEmpty ⟨-64, 3, 0, 100⟩ (Layout.ofFootprint 32 32) (by decide)
  have hempty := halong.2 (.inl ⟨rfl, by decide⟩)
  exact ⟨rfl, Bool.eq_false_iff.2 (mt hinside.1 (by decide)), rfl, hempty, htiles.1 hempty⟩

/-- An area without points whose grid has four tiles. -/
theorem covering_ne_empty_of_line :
    Area.isEmpty ⟨5, 0, 0, 100⟩ = true ∧
    (covering ⟨5, 0, 0, 100⟩ (Layout.ofFootprint 32 32)).isEmpty = false ∧
    (covering ⟨5, 0, 0, 100⟩ (Layout.ofFootprint 32 32)).tiles
      = [⟨0, 0⟩, ⟨0, 1⟩, ⟨0, 2⟩, ⟨0, 3⟩] := by
  decide

end Grid

end WorldMap
