import WorldMap.Proofs.Geometry.Covering
import WorldMap.Proofs.Geometry.Viewport
import WorldMap.Render.Job
/-!
# The geometry of a job that is accepted

`Job.validate` bounds the visible sides by what fits in a signed 32-bit word. That is enough for all
that follows: the view has the exact offsets, the area the exact sides, and as the world origin lies
inside the area the far corner of the area, divided by whatever tile size, stays in 32 bits too.
-/

namespace WorldMap

namespace Job

variable {j : Job} {v : Viewport} {a : Area} {l : Layout}

structure Accepted (j : Job) : Prop where
  width_pos : 0 < j.width.toNat
  height_pos : 0 < j.height.toNat
  scale_pos : 0 < j.scale.toNat
  width_le : j.width.toNat ≤ maxSurfaceWidth
  sideX_le : j.width.toNat * j.scale.toNat ≤ maxWorldSide
  sideY_le : j.height.toNat * j.scale.toNat ≤ maxWorldSide

theorem validate_eq_ok_iff : j.validate = .ok () ↔ j.Accepted := by
  have hzero : ∀ n : UInt32, n = 0 ↔ ¬ 0 < n.toNat := fun n => by
    rw [← UInt32.toNat_inj]
    change n.toNat = 0 ↔ _
    omega
  constructor
  · intro hvalid
    unfold validate problem? at hvalid
    split at hvalid
    · simp at hvalid
    · rename_i hproblem
      simp only [hzero] at hproblem
      split at hproblem
      · simp at hproblem
      · split at hproblem
        · simp at hproblem
        · split at hproblem
          · simp at hproblem
          · split at hproblem
            · simp at hproblem
            · constructor <;> omega
  · rintro ⟨hwidth, hheight, hscale, hwide, hsideX, hsideY⟩
    have hproblem : j.problem? = none := by
      simp only [problem?, hzero]
      rw [if_neg (by omega), if_neg (by omega), if_neg (by omega), if_neg (by omega)]
    rw [validate, hproblem]

theorem validate_eq_refuse_iff {p : GeometryProblem} :
    j.validate = .error (j.refuse p) ↔ j.problem? = some p := by
  unfold validate
  cases j.problem? with
  | none => simp
  | some q => simp [refuse]

/-- How the world is seen by a job: by view `v`, in which the area `a` shows. -/
structure Sees (j : Job) (v : Viewport) (a : Area) : Prop where
  width : v.width = j.width
  height : v.height = j.height
  scale : v.scale = j.scale
  offsetX : v.offsetX.toInt = -((j.width.toNat * j.scale.toNat : Nat) / 2 : Int)
  offsetY : v.offsetY.toInt = -((j.height.toNat * j.scale.toNat : Nat) / 2 : Int)
  minX : a.minX = v.offsetX
  minY : a.minY = v.offsetY
  sideX : a.width.toNat = j.width.toNat * j.scale.toNat
  sideY : a.height.toNat = j.height.toNat * j.scale.toNat

namespace Accepted

theorem scale_ne_zero (h : j.Accepted) : j.scale ≠ 0 := fun hzero => by
  have hpos := h.scale_pos
  rw [hzero] at hpos
  exact absurd hpos (by decide)

/-- No operation on the way to the view and its area fails. -/
theorem exists_sees (h : j.Accepted) :
    ∃ v a, j.viewport = .ok v ∧ v.worldArea = .ok a ∧ j.Sees v a := by
  obtain ⟨x, y, hview, hx, hy⟩ := Viewport.centred_eq h.scale_ne_zero h.sideX_le h.sideY_le
  obtain ⟨sideX, sideY, harea, hsideX, hsideY⟩ :=
    Viewport.worldArea_eq (v := ⟨j.width, j.height, j.scale, x, y⟩) h.sideX_le h.sideY_le
  exact ⟨_, _, hview, harea, rfl, rfl, rfl, hx, hy, rfl, rfl, hsideX, hsideY⟩

end Accepted

namespace Sees

theorem maxX_eq (hsees : j.Sees v a) :
    a.maxX = v.offsetX.toInt + (j.width.toNat * j.scale.toNat : Nat) := by
  rw [Area.maxX, hsees.minX, hsees.sideX]

theorem maxY_eq (hsees : j.Sees v a) :
    a.maxY = v.offsetY.toInt + (j.height.toNat * j.scale.toNat : Nat) := by
  rw [Area.maxY, hsees.minY, hsees.sideY]

theorem isEmpty_eq (h : j.Accepted) (hsees : j.Sees v a) : a.isEmpty = false := by
  have hsideX := Nat.mul_pos h.width_pos h.scale_pos
  have hsideY := Nat.mul_pos h.height_pos h.scale_pos
  rw [← hsees.sideX] at hsideX
  rw [← hsees.sideY] at hsideY
  simp only [Area.isEmpty, Bool.or_eq_false_iff, beq_eq_false_iff_ne, ne_eq]
  constructor
  · intro hzero
    rw [hzero] at hsideX
    exact absurd hsideX (by decide)
  · intro hzero
    rw [hzero] at hsideY
    exact absurd hsideY (by decide)

theorem maxX_mem (h : j.Accepted) (hsees : j.Sees v a) : a.maxX ∈ IntRange.signed32 := by
  have hoffset := hsees.offsetX
  have hside := h.sideX_le
  rw [hsees.maxX_eq, IntRange.mem_signed32]
  simp only [maxWorldSide] at hside
  omega

theorem maxY_mem (h : j.Accepted) (hsees : j.Sees v a) : a.maxY ∈ IntRange.signed32 := by
  have hoffset := hsees.offsetY
  have hside := h.sideY_le
  rw [hsees.maxY_eq, IntRange.mem_signed32]
  simp only [maxWorldSide] at hside
  omega

theorem ceilDiv_maxX_mem (h : j.Accepted) (hsees : j.Sees v a) (l : Layout) :
    Grid.ceilDiv a.maxX l.width.toNat ∈ IntRange.signed32 :=
  Grid.ceilDiv_mem l.toInt_width_pos (by decide) (by decide) (hsees.maxX_mem h)

theorem ceilDiv_maxY_mem (h : j.Accepted) (hsees : j.Sees v a) (l : Layout) :
    Grid.ceilDiv a.maxY l.depth.toNat ∈ IntRange.signed32 :=
  Grid.ceilDiv_mem l.toInt_depth_pos (by decide) (by decide) (hsees.maxY_mem h)

theorem area_contains_iff (hsees : j.Sees v a) {x y : Int} :
    a.contains x y = true ↔
      (v.offsetX.toInt ≤ x ∧ x < v.offsetX.toInt + (j.width.toNat * j.scale.toNat : Nat)) ∧
      (v.offsetY.toInt ≤ y ∧ y < v.offsetY.toInt + (j.height.toNat * j.scale.toNat : Nat)) := by
  rw [Area.contains_iff, hsees.maxX_eq, hsees.maxY_eq, hsees.minX, hsees.minY]
  exact and_assoc.symm

/-- The grid of a job has the tiles that share a point with its area. -/
theorem contains_covering_iff (h : j.Accepted) (hsees : j.Sees v a) {t : Tile} :
    (Grid.covering a l).contains t = true ↔ ∃ x z, a.contains x z = true ∧ t.Covers l x z :=
  Grid.contains_covering_iff (hsees.isEmpty_eq h) (hsees.ceilDiv_maxX_mem h l)
    (hsees.ceilDiv_maxY_mem h l)

/-- A tile that shows begins and ends in 32 bits if its sides do. -/
theorem footprint_mem (h : j.Accepted) (hsees : j.Sees v a) {t : Tile}
    (ht : (Grid.covering a l).contains t = true) :
    (l.width.toNat ≤ 2147483647 →
      t.originX l ∈ IntRange.signed32 ∧ t.originX l + l.width.toNat ∈ IntRange.signed32) ∧
    (l.depth.toNat ≤ 2147483647 →
      t.originZ l ∈ IntRange.signed32 ∧ t.originZ l + l.depth.toNat ∈ IntRange.signed32) := by
  obtain ⟨x, z, hcontains, hleft, hright, htop, hbottom⟩ := (hsees.contains_covering_iff h).1 ht
  obtain ⟨⟨hx, hx'⟩, hz, hz'⟩ := hsees.area_contains_iff.1 hcontains
  have hoffsetX := hsees.offsetX
  have hoffsetY := hsees.offsetY
  have hsideX := h.sideX_le
  have hsideY := h.sideY_le
  simp only [maxWorldSide] at hsideX hsideY
  constructor
  · intro hwidth
    exact Grid.part_mem_signed32 l.toInt_width_pos (by omega) (by omega) (by omega) hleft hright
  · intro hdepth
    exact Grid.part_mem_signed32 l.toInt_depth_pos (by omega) (by omega) (by omega) htop hbottom

/-- The points that show are those that fall on a pixel. -/
theorem toOutput_mem_iff (h : j.Accepted) (hsees : j.Sees v a) {wx wy : Int} :
    ((0 ≤ (wx - v.offsetX.toInt) / v.scale.toNat ∧
        (wx - v.offsetX.toInt) / v.scale.toNat < j.width.toNat) ∧
      (0 ≤ (wy - v.offsetY.toInt) / v.scale.toNat ∧
        (wy - v.offsetY.toInt) / v.scale.toNat < j.height.toNat)) ↔
      a.contains wx wy = true := by
  have hscale : (0 : Int) < v.scale.toNat := by
    rw [hsees.scale]
    exact_mod_cast h.scale_pos
  rw [Viewport.pixel_mem_iff hscale, Viewport.pixel_mem_iff hscale, hsees.area_contains_iff,
    hsees.scale, Int.natCast_mul, Int.natCast_mul]
  omega

/-- The world origin falls on the pixel in the middle. Half of a side of the area, divided by the
scale, is half of the side of the output, whichever of them are odd. -/
theorem toOutput_origin (h : j.Accepted) (hsees : j.Sees v a) :
    v.toOutput 0 0 = .ok (((j.width.toNat / 2 : Nat) : Int), ((j.height.toNat / 2 : Nat) : Int)) := by
  have hhalf (n : Nat) : n * j.scale.toNat / 2 / j.scale.toNat = n / 2 := by
    rw [Nat.div_div_eq_div_mul, Nat.mul_div_mul_right n 2 h.scale_pos]
  have hdistance (n : Nat) :
      -(-((n * j.scale.toNat : Nat) / 2 : Int)) / j.scale.toNat = ((n / 2 : Nat) : Int) := by
    rw [Int.neg_neg]
    exact_mod_cast hhalf n
  rw [Viewport.toOutput_origin (hsees.scale ▸ h.scale_ne_zero), hsees.scale, hsees.offsetX,
    hsees.offsetY, hdistance, hdistance]

end Sees

/-- The geometry of a job that is accepted is exact. Its view and its area are computed without a
fault, with the offsets and sides that they should have; so is the grid in 64 bits, and its corners fit
in 32. A world point that can be looked up falls on a pixel of the
output if and only if it is in the area, and then the grid has the tile under it. And the grid has no
tile without such a point, and is not empty. -/
theorem geometry_exact (j : Job) (l : Layout) (hvalid : j.validate = .ok ()) :
    ∃ v a, j.viewport = .ok v ∧ v.worldArea = .ok a ∧ j.Sees v a ∧
      (∀ x y, a.contains x y = true ↔
        (v.offsetX.toInt ≤ x ∧ x < v.offsetX.toInt + (j.width.toNat * j.scale.toNat : Nat)) ∧
        (v.offsetY.toInt ≤ y ∧ y < v.offsetY.toInt + (j.height.toNat * j.scale.toNat : Nat))) ∧
      Grid.cover a l = .ok (Grid.covering a l) ∧
      (Grid.covering a l).minX.toInt = a.minX.toInt / l.width.toNat ∧
      (Grid.covering a l).minZ.toInt = a.minY.toInt / l.depth.toNat ∧
      (Grid.covering a l).maxX.toInt = Grid.ceilDiv a.maxX l.width.toNat ∧
      (Grid.covering a l).maxZ.toInt = Grid.ceilDiv a.maxY l.depth.toNat ∧
      (∀ wx wy, wx - v.offsetX.toInt ∈ IntRange.signed64 →
        wy - v.offsetY.toInt ∈ IntRange.signed64 →
        ∃ px py, v.toOutput wx wy = .ok (px, py) ∧
          (((0 ≤ px ∧ px < j.width.toNat) ∧ (0 ≤ py ∧ py < j.height.toNat)) ↔
            a.contains wx wy = true) ∧
          (a.contains wx wy = true →
            (Grid.covering a l).contains (Tile.containing wx wy l) = true ∧
            (Tile.containing wx wy l).Covers l wx wy)) ∧
      (∀ t, (Grid.covering a l).contains t = true →
        ∃ wx wy, a.contains wx wy = true ∧ t.Covers l wx wy) ∧
      (Grid.covering a l).isEmpty = false := by
  have h := validate_eq_ok_iff.1 hvalid
  obtain ⟨v, a, hview, harea, hsees⟩ := h.exists_sees
  have hempty := hsees.isEmpty_eq h
  have hfitsX := hsees.ceilDiv_maxX_mem h l
  have hfitsZ := hsees.ceilDiv_maxY_mem h l
  refine ⟨v, a, hview, harea, hsees, fun x y => hsees.area_contains_iff,
    Grid.cover_eq a l, Grid.toInt_minX_covering a l,
    Grid.toInt_minZ_covering a l, Grid.toInt_maxX_covering hempty hfitsX,
    Grid.toInt_maxZ_covering hempty hfitsZ, fun wx wy hx hy => ?_, fun t ht => ?_,
    Grid.isEmpty_covering hempty hfitsX hfitsZ⟩
  · have hscale : v.scale ≠ 0 := hsees.scale ▸ h.scale_ne_zero
    exact ⟨_, _, Viewport.toOutput_eq hscale hx hy, hsees.toOutput_mem_iff h,
      Grid.containing_mem_covering hempty hfitsX hfitsZ⟩
  · exact (Grid.contains_covering_iff hempty hfitsX hfitsZ).1 ht

/-- Ten by six world points, over tiles that do not line up with them. -/
private def smallJob : Job := ⟨5, 3, 2, none, ⟨0, []⟩⟩

theorem geometry_exact_smallJob :
    smallJob.validate = .ok () ∧ ∃ v a, smallJob.viewport = .ok v ∧ v.worldArea = .ok a ∧
      a.contains 4 2 = true ∧
      (∃ px py, v.toOutput 4 2 = .ok (px, py) ∧ (0 ≤ px ∧ px < 5) ∧ (0 ≤ py ∧ py < 3)) ∧
      (Grid.covering a (Layout.ofFootprint 4 7)).isEmpty = false := by
  have hvalid : smallJob.validate = .ok () := by decide
  obtain ⟨v, a, hview, harea, hsees, hcontains, -, -, -, -, -, houtput, -, hempty⟩ :=
    geometry_exact smallJob (Layout.ofFootprint 4 7) hvalid
  have hx : v.offsetX.toInt = -5 := hsees.offsetX
  have hy : v.offsetY.toInt = -3 := hsees.offsetY
  have hpoint : a.contains 4 2 = true := by
    rw [hcontains, hx, hy]
    decide
  obtain ⟨px, py, hpixel, hiff, -⟩ := houtput 4 2 (by rw [hx]; decide) (by rw [hy]; decide)
  exact ⟨hvalid, v, a, hview, harea, hpoint, ⟨px, py, hpixel, hiff.2 hpoint⟩, hempty⟩

end Job

end WorldMap
