import WorldMap.Proofs.Geometry.Grid
/-!
# The grid that covers an area

On each axis a grid has the tiles from `lo / d` up to `ceilDiv hi d`. Those are the tiles that have a
point between `lo` and `hi`: a tile that begins before `hi` and ends after `lo` has one, namely `lo` or
its own first point. So a grid that covers an area has every tile with a point of the area and no
other, as long as its corners fit in 32 bits. The lower corner always does.
-/

namespace WorldMap

theorem Layout.toInt_width_pos (l : Layout) : (0 : Int) < l.width.toNat := by
  exact_mod_cast l.width_pos

theorem Layout.toInt_depth_pos (l : Layout) : (0 : Int) < l.depth.toNat := by
  exact_mod_cast l.depth_pos

namespace Tile

structure Covers (t : Tile) (l : Layout) (x z : Int) : Prop where
  originX_le : t.originX l ≤ x
  lt_endX : x < t.originX l + l.width.toNat
  originZ_le : t.originZ l ≤ z
  lt_endZ : z < t.originZ l + l.depth.toNat

/-- A tile covers the points that it is the quotient of. -/
theorem covers_iff {t : Tile} {l : Layout} {x z : Int} :
    t.Covers l x z ↔ x / l.width.toNat = t.x.toInt ∧ z / l.depth.toNat = t.z.toInt := by
  rw [Int.ediv_eq_iff_of_pos l.toInt_width_pos, Int.ediv_eq_iff_of_pos l.toInt_depth_pos]
  constructor
  · rintro ⟨hx, hx', hz, hz'⟩
    exact ⟨⟨hx, hx'⟩, hz, hz'⟩
  · rintro ⟨⟨hx, hx'⟩, hz, hz'⟩
    exact ⟨hx, hx', hz, hz'⟩

end Tile

namespace Grid

/-! ### One axis -/

section Axis

variable {n lo hi d t : Int}

theorem lt_ceilDiv_iff (hd : 0 < d) : t < ceilDiv n d ↔ t * d < n := by
  have hneg : -n < -t * d ↔ t * d < n := by
    rw [Int.neg_mul]
    omega
  rw [← hneg, ← Int.ediv_lt_iff_lt_mul hd, ceilDiv]
  omega

/-- A part between the two quotients has a point between `lo` and `hi`, and no other part has. -/
theorem exists_mem_part_iff (hd : 0 < d) (hlo : lo < hi) :
    (lo / d ≤ t ∧ t < ceilDiv hi d) ↔ ∃ x, (lo ≤ x ∧ x < hi) ∧ t * d ≤ x ∧ x < t * d + d := by
  rw [Int.ediv_le_iff_le_mul hd, lt_ceilDiv_iff hd]
  constructor
  · rintro ⟨hlow, hhigh⟩
    exact ⟨max lo (t * d), by omega, by omega⟩
  · rintro ⟨x, ⟨hx, hx'⟩, hpart, hpart'⟩
    omega

theorem ediv_lt_ceilDiv (hd : 0 < d) (hlo : lo < hi) : lo / d < ceilDiv hi d :=
  (lt_ceilDiv_iff hd).2 (Int.lt_of_le_of_lt (Int.ediv_mul_le lo (Int.ne_of_gt hd)) hlo)

/-- A quotient lies between its dividend and zero. -/
theorem ediv_mem {r : IntRange} (hd : 0 < d) (hlow : r.lo ≤ 0) (hhigh : 0 ≤ r.hi) (hn : n ∈ r) :
    n / d ∈ r := by
  obtain ⟨hlo, hhi⟩ := hn
  constructor
  · have hscaled : r.lo * d ≤ r.lo * 1 := Int.mul_le_mul_of_nonpos_left hlow hd
    rw [Int.le_ediv_iff_mul_le hd]
    omega
  · have hscaled : (r.hi + 1) * 1 ≤ (r.hi + 1) * d := Int.mul_le_mul_of_nonneg_left hd (by omega)
    rw [← Int.lt_add_one_iff, Int.ediv_lt_iff_lt_mul hd]
    omega

theorem ceilDiv_mem {r : IntRange} (hd : 0 < d) (hlow : r.lo ≤ 0) (hhigh : 0 ≤ r.hi) (hn : n ∈ r) :
    ceilDiv n d ∈ r := by
  have hneg : -n ∈ IntRange.mk (-r.hi) (-r.lo) := by
    obtain ⟨hlo, hhi⟩ := hn
    exact ⟨by change -r.hi ≤ -n; omega, by change -n ≤ -r.lo; omega⟩
  obtain ⟨hlo, hhi⟩ := ediv_mem (r := ⟨-r.hi, -r.lo⟩) hd (by change -r.hi ≤ 0; omega)
    (by change 0 ≤ -r.lo; omega) hneg
  change -r.hi ≤ -n / d at hlo
  change -n / d ≤ -r.lo at hhi
  exact ⟨by rw [ceilDiv]; omega, by rw [ceilDiv]; omega⟩

/-- The part of a point between `lo` and `hi` fits in 32 bits if the two quotients do. -/
theorem toInt_ofInt_ediv (hd : 0 < d) (hlo : lo ∈ IntRange.signed32)
    (hhi : ceilDiv hi d ∈ IntRange.signed32) (hn : lo ≤ n) (hn' : n < hi) :
    (Int32.ofInt (n / d)).toInt = n / d := by
  have hlow := ediv_mem hd (by decide) (by decide) hlo
  have hle : lo / d ≤ n / d := Int.ediv_le_ediv hd hn
  have hlt := ediv_lt_ceilDiv hd hn'
  rw [IntRange.mem_signed32] at hlow hhi
  exact IntRange.toInt_ofInt (IntRange.mem_signed32.2 (by omega))

/-- A part that has a point within two to the power 30 of the origin begins and ends in 32 bits if
its length does. Where it neither begins nor ends at the origin, the point is at least that length
away from it. -/
theorem part_mem_signed32 {x : Int} (hd : 0 < d) (hlength : d ≤ 2147483647)
    (hlow : -1073741824 ≤ x) (hhigh : x < 1073741824) (hpart : t * d ≤ x)
    (hpart' : x < t * d + d) :
    t * d ∈ IntRange.signed32 ∧ t * d + d ∈ IntRange.signed32 := by
  rw [IntRange.mem_signed32, IntRange.mem_signed32]
  rcases Int.lt_trichotomy t 0 with hneg | rfl | hpos
  -- The part before the origin ends there; one before that ends a length away from it.
  · rcases Int.lt_or_eq_of_le (Int.le_sub_one_of_lt hneg) with hbelow | rfl
    · have hscaled : (t + 1) * d ≤ -1 * d := Int.mul_le_mul_of_nonneg_right (by omega) (by omega)
      rw [Int.add_mul] at hscaled
      omega
    · omega
  · omega
  · have hscaled : 1 * d ≤ t * d := Int.mul_le_mul_of_nonneg_right hpos (by omega)
    omega

end Axis

/-! ### Both axes -/

section Area

variable {a : Area} {l : Layout} {t : Tile}

theorem minX_lt_maxX (harea : a.isEmpty = false) : a.minX.toInt < a.maxX := by
  simp only [Area.isEmpty, Bool.or_eq_false_iff, beq_eq_false_iff_ne, ne_eq] at harea
  have hwidth := IntRange.toNat_pos harea.1
  rw [Area.maxX]
  omega

theorem minY_lt_maxY (harea : a.isEmpty = false) : a.minY.toInt < a.maxY := by
  simp only [Area.isEmpty, Bool.or_eq_false_iff, beq_eq_false_iff_ne, ne_eq] at harea
  have hheight := IntRange.toNat_pos harea.2
  rw [Area.maxY]
  omega

theorem toInt_minX_covering (a : Area) (l : Layout) :
    (covering a l).minX.toInt = a.minX.toInt / l.width.toNat :=
  IntRange.toInt_ofInt
    (ediv_mem l.toInt_width_pos (by decide) (by decide) (IntRange.toInt_mem a.minX))

theorem toInt_minZ_covering (a : Area) (l : Layout) :
    (covering a l).minZ.toInt = a.minY.toInt / l.depth.toNat :=
  IntRange.toInt_ofInt
    (ediv_mem l.toInt_depth_pos (by decide) (by decide) (IntRange.toInt_mem a.minY))

theorem toInt_maxX_covering (harea : a.isEmpty = false)
    (hfits : ceilDiv a.maxX l.width.toNat ∈ IntRange.signed32) :
    (covering a l).maxX.toInt = ceilDiv a.maxX l.width.toNat := by
  have hmin : (Int32.ofInt (a.minX.toInt / l.width.toNat)).toInt = _ := toInt_minX_covering a l
  have hmax := IntRange.toInt_ofInt hfits
  have hlt := ediv_lt_ceilDiv l.toInt_width_pos (minX_lt_maxX harea)
  rw [covering, maxX_ofCorners (by omega), hmax]

theorem toInt_maxZ_covering (harea : a.isEmpty = false)
    (hfits : ceilDiv a.maxY l.depth.toNat ∈ IntRange.signed32) :
    (covering a l).maxZ.toInt = ceilDiv a.maxY l.depth.toNat := by
  have hmin : (Int32.ofInt (a.minY.toInt / l.depth.toNat)).toInt = _ := toInt_minZ_covering a l
  have hmax := IntRange.toInt_ofInt hfits
  have hlt := ediv_lt_ceilDiv l.toInt_depth_pos (minY_lt_maxY harea)
  rw [covering, maxZ_ofCorners (by omega), hmax]

/-! ### In checked arithmetic -/

theorem floorDivide_of_pos {n : Int} {d : UInt32} (hd : 0 < d.toNat) :
    floorDivide n d = .ok (n / d.toNat) := by
  have hne : d ≠ 0 := by
    rintro rfl
    exact absurd hd (by decide)
  exact if_neg hne

theorem ceilDivide_of_mem {n : Int} {d : UInt32} (hd : 0 < d.toNat) (hn : n ∈ IntRange.signed64)
    (hneg : -n ∈ IntRange.signed64) : ceilDivide n d = .ok (ceilDiv n d.toNat) := by
  have hceil : ceilDiv n d.toNat ∈ IntRange.signed64 :=
    ceilDiv_mem (by exact_mod_cast hd) (by decide) (by decide) hn
  rw [ceilDivide, IntRange.neg_of_mem hneg]
  change (floorDivide (-n) d >>= fun quotient => IntRange.signed64.neg quotient) = _
  rw [floorDivide_of_pos hd]
  exact IntRange.neg_of_mem hceil

/-- No number on the way to the grid is out of range: not the corners, their quotients, or what the
signs of the upper corner are changed to. -/
theorem cover_eq (a : Area) (l : Layout) : cover a l = .ok (covering a l) := by
  have hminX := IntRange.mem_signed32.1 (IntRange.toInt_mem a.minX)
  have hminY := IntRange.mem_signed32.1 (IntRange.toInt_mem a.minY)
  have hwidth := IntRange.mem_unsigned32.1 (IntRange.toNat_mem a.width)
  have hheight := IntRange.mem_unsigned32.1 (IntRange.toNat_mem a.height)
  have hmaxX : a.maxX ∈ IntRange.signed64 ∧ -a.maxX ∈ IntRange.signed64 := by
    rw [Area.maxX, IntRange.mem_signed64, IntRange.mem_signed64]
    omega
  have hmaxY : a.maxY ∈ IntRange.signed64 ∧ -a.maxY ∈ IntRange.signed64 := by
    rw [Area.maxY, IntRange.mem_signed64, IntRange.mem_signed64]
    omega
  have hupperX : ceilDivide (a.minX.toInt + a.width.toNat) l.width =
      .ok (ceilDiv a.maxX l.width.toNat) := ceilDivide_of_mem l.width_pos hmaxX.1 hmaxX.2
  have hupperZ : ceilDivide (a.minY.toInt + a.height.toNat) l.depth =
      .ok (ceilDiv a.maxY l.depth.toNat) := ceilDivide_of_mem l.depth_pos hmaxY.1 hmaxY.2
  simp only [cover, floorDivide_of_pos l.width_pos, floorDivide_of_pos l.depth_pos,
    IntRange.add_of_mem hmaxX.1, IntRange.add_of_mem hmaxY.1, bind, Except.bind]
  rw [hupperX, hupperZ]
  rfl

/-- The tiles of the grid are those with a point of the area. -/
theorem contains_covering_iff (harea : a.isEmpty = false)
    (hfitsX : ceilDiv a.maxX l.width.toNat ∈ IntRange.signed32)
    (hfitsZ : ceilDiv a.maxY l.depth.toNat ∈ IntRange.signed32) :
    (covering a l).contains t = true ↔ ∃ x z, a.contains x z = true ∧ t.Covers l x z := by
  have hcolumn := exists_mem_part_iff (t := t.x.toInt) l.toInt_width_pos (minX_lt_maxX harea)
  have hrow := exists_mem_part_iff (t := t.z.toInt) l.toInt_depth_pos (minY_lt_maxY harea)
  rw [contains_iff, toInt_minX_covering, toInt_minZ_covering, toInt_maxX_covering harea hfitsX,
    toInt_maxZ_covering harea hfitsZ]
  constructor
  · rintro ⟨hminX, hmaxX, hminZ, hmaxZ⟩
    obtain ⟨x, ⟨hx, hx'⟩, hcovers, hcovers'⟩ := hcolumn.1 ⟨hminX, hmaxX⟩
    obtain ⟨z, ⟨hz, hz'⟩, hcoversZ, hcoversZ'⟩ := hrow.1 ⟨hminZ, hmaxZ⟩
    exact ⟨x, z, Area.contains_iff.2 ⟨hx, hx', hz, hz'⟩, hcovers, hcovers', hcoversZ, hcoversZ'⟩
  · rintro ⟨x, z, hcontains, hcovers⟩
    obtain ⟨hx, hx', hz, hz'⟩ := Area.contains_iff.1 hcontains
    obtain ⟨hminX, hmaxX⟩ := hcolumn.2 ⟨x, ⟨hx, hx'⟩, hcovers.originX_le, hcovers.lt_endX⟩
    obtain ⟨hminZ, hmaxZ⟩ := hrow.2 ⟨z, ⟨hz, hz'⟩, hcovers.originZ_le, hcovers.lt_endZ⟩
    exact ⟨hminX, hmaxX, hminZ, hmaxZ⟩

theorem isEmpty_covering (harea : a.isEmpty = false)
    (hfitsX : ceilDiv a.maxX l.width.toNat ∈ IntRange.signed32)
    (hfitsZ : ceilDiv a.maxY l.depth.toNat ∈ IntRange.signed32) :
    (covering a l).isEmpty = false := by
  have hminX := toInt_minX_covering a l
  have hminZ := toInt_minZ_covering a l
  have hmaxX := toInt_maxX_covering harea hfitsX
  have hmaxZ := toInt_maxZ_covering harea hfitsZ
  have hcolumns := ediv_lt_ceilDiv l.toInt_width_pos (minX_lt_maxX harea)
  have hrows := ediv_lt_ceilDiv l.toInt_depth_pos (minY_lt_maxY harea)
  have hwidth : 0 < (covering a l).width := by
    rw [width]
    omega
  have hdepth : 0 < (covering a l).depth := by
    rw [depth]
    omega
  have hsize : (covering a l).size ≠ 0 := Nat.ne_of_gt (Nat.mul_pos hwidth hdepth)
  simpa [isEmpty] using hsize

/-- The tile under a point of the area is in the grid, and covers the point. -/
theorem containing_mem_covering (harea : a.isEmpty = false)
    (hfitsX : ceilDiv a.maxX l.width.toNat ∈ IntRange.signed32)
    (hfitsZ : ceilDiv a.maxY l.depth.toNat ∈ IntRange.signed32) {x z : Int}
    (hcontains : a.contains x z = true) :
    (covering a l).contains (.containing x z l) = true ∧ (Tile.containing x z l).Covers l x z := by
  obtain ⟨hx, hx', hz, hz'⟩ := Area.contains_iff.1 hcontains
  have hcolumn := toInt_ofInt_ediv l.toInt_width_pos (IntRange.toInt_mem a.minX) hfitsX hx hx'
  have hrow := toInt_ofInt_ediv l.toInt_depth_pos (IntRange.toInt_mem a.minY) hfitsZ hz hz'
  have hcovers : (Tile.containing x z l).Covers l x z :=
    Tile.covers_iff.2 ⟨hcolumn.symm, hrow.symm⟩
  exact ⟨(contains_covering_iff harea hfitsX hfitsZ).2 ⟨x, z, hcontains, hcovers⟩, hcovers⟩

end Area

end Grid

end WorldMap
