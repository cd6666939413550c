import WorldMap.Proofs.Image.Alpha
import WorldMap.Proofs.Render.Picture
import WorldMap.Proofs.Tiles.Shade
/-!
# No accepted job is left unpainted

A composition passes over a target that there is no surface for, without a word. A job is protected
from that by its validation, as the widths that are too wide for a job are those that are too wide
for a surface. On the way from the grid to the surface nothing is lost either: the tiles of an
accepted job begin and end within 32 bits, so each of them is drawn where it lies in the world.
-/

namespace WorldMap

/-! ### Tiles in 32 bits -/

namespace TileResult.OnGrid

variable {j : Job} {v : Viewport} {a : Area} {l : Layout} {tiles : List (TileResult Pixmap)}
  {t : TileResult Pixmap} {image : Pixmap}

/-- An image that a tile of an accepted job can have begins and ends in 32 bits. -/
theorem footprint_mem (hgrid : OnGrid l (Grid.covering a l) tiles) (h : j.Accepted)
    (hsees : j.Sees v a) (hdepth : l.depth.toNat ≤ 2147483647) (ht : t ∈ tiles)
    (himage : t.image = some image) :
    (t.tile.originX l ∈ IntRange.signed32 ∧
        t.tile.originX l + image.width ∈ IntRange.signed32) ∧
      (t.tile.originZ l ∈ IntRange.signed32 ∧
        t.tile.originZ l + image.height ∈ IntRange.signed32) := by
  obtain ⟨blank, hblank⟩ := hgrid.surface t ht image himage
  have hwide := (Pixmap.size_of_blank? hblank).1
  obtain ⟨hcolumn, hrow⟩ := hsees.footprint_mem h (hgrid.contains t ht)
  rw [hgrid.width_eq t ht image himage, maxSurfaceWidth] at hwide
  rw [hgrid.width_eq t ht image himage, hgrid.height_eq t ht image himage]
  exact ⟨hcolumn (by omega), hrow hdepth⟩

theorem isPlaced (hgrid : OnGrid l (Grid.covering a l) tiles) (h : j.Accepted)
    (hsees : j.Sees v a) (hdepth : l.depth.toNat ≤ 2147483647) (ht : t ∈ tiles) :
    t.IsPlaced l := by
  intro image himage
  obtain ⟨⟨hx, hright⟩, hz, hbottom⟩ := hgrid.footprint_mem h hsees hdepth ht himage
  rw [IntRange.toInt_ofInt hx, IntRange.toInt_ofInt hz]
  exact ⟨hright, hbottom⟩

end TileResult.OnGrid

namespace Job

/-- The tiles of an accepted job are where their place is computed to be. With sides that an image
can have, the first and the far corner of a tile fit in 32 bits, so cutting the first one down to
them loses nothing, and an image of the tile's size is drawn at that very corner. -/
theorem tiles_are_placed_exactly (j : Job) (l : Layout) (hvalid : j.validate = .ok ())
    (hwide : l.width.toNat ≤ maxSurfaceWidth) (hdeep : l.depth.toNat ≤ 2147483647) :
    ∃ v a, j.viewport = .ok v ∧ v.worldArea = .ok a ∧
      ∀ t, (Grid.covering a l).contains t = true →
        (t.originX l ∈ IntRange.signed32 ∧ t.originX l + l.width.toNat ∈ IntRange.signed32) ∧
        (t.originZ l ∈ IntRange.signed32 ∧ t.originZ l + l.depth.toNat ∈ IntRange.signed32) ∧
        (Int32.ofInt (t.originX l)).toInt = t.originX l ∧
        (Int32.ofInt (t.originZ l)).toInt = t.originZ l ∧
        ∀ (c : Compositor) (image canvas : Pixmap), c.layout = l →
          image.width = l.width.toNat → image.height = l.depth.toNat →
          c.drawTile v canvas ⟨t, some image⟩ = .ok (canvas.drawImage image (t.originX l)
            (t.originZ l) v.offsetX.toInt v.offsetY.toInt v.scale) := by
  have h := validate_eq_ok_iff.1 hvalid
  obtain ⟨v, a, hview, harea, hsees⟩ := h.exists_sees
  refine ⟨v, a, hview, harea, fun t ht => ?_⟩
  rw [maxSurfaceWidth] at hwide
  obtain ⟨hcolumn, hrow⟩ := hsees.footprint_mem h ht
  obtain ⟨hx, hright⟩ := hcolumn (by omega)
  obtain ⟨hz, hbottom⟩ := hrow hdeep
  have hexactX := IntRange.toInt_ofInt hx
  have hexactZ := IntRange.toInt_ofInt hz
  refine ⟨⟨hx, hright⟩, ⟨hz, hbottom⟩, hexactX, hexactZ, ?_⟩
  rintro c image canvas rfl hwidth hheight
  have hplaced : TileResult.IsPlaced c.layout ⟨t, some image⟩ := by
    rintro image' ⟨⟩
    rw [hexactX, hexactZ, hwidth, hheight]
    exact ⟨hright, hbottom⟩
  rw [Compositor.drawTile_of_isPlaced rfl hplaced, hexactX, hexactZ]

/-- As wide as the world can be seen, by tiles as wide and as deep as they can be. -/
private def farJob : Job := ⟨536870911, 1, 4, none, ⟨0, []⟩⟩

private def farView : Viewport := ⟨536870911, 1, 4, -1073741822, -2⟩

private def farArea : Area := ⟨-1073741822, -2, 2147483644, 4⟩

private def farLayout : Layout := .ofFootprint 536870911 2147483647

/-- The tile at the upper left begins at the second of the rows that there are in 32 bits. -/
theorem tiles_are_placed_exactly_farJob :
    farJob.validate = .ok () ∧ farJob.viewport = .ok farView ∧ farView.worldArea = .ok farArea ∧
      (Grid.covering farArea farLayout).contains ⟨-2, -1⟩ = true ∧
      (Int32.ofInt (Tile.originZ ⟨-2, -1⟩ farLayout)).toInt = -2147483647 := by
  have hvalid : farJob.validate = .ok () := by decide
  have hview : farJob.viewport = .ok farView := rfl
  have harea : farView.worldArea = .ok farArea := rfl
  have htile : (Grid.covering farArea farLayout).contains ⟨-2, -1⟩ = true := by decide
  obtain ⟨v, a, hview', harea', htiles⟩ :=
    tiles_are_placed_exactly farJob farLayout hvalid (by decide) (by decide)
  obtain rfl : farView = v := Except.ok.inj (hview.symm.trans hview')
  obtain rfl : farArea = a := Except.ok.inj (harea.symm.trans harea')
  obtain ⟨-, -, -, hexactZ, -⟩ := htiles ⟨-2, -1⟩ htile
  exact ⟨hvalid, hview, harea, htile, hexactZ⟩

end Job

/-! ### Surfaces -/

namespace Pixmap

/-- There is a surface of the sizes that have pixels, rows whose bytes can be counted in 31 bits, and
bytes that can be counted in 64. -/
theorem isSome_blank?_iff (width height : UInt32) :
    (blank? width.toNat height.toNat).isSome = true ↔
      width ≠ 0 ∧ height ≠ 0 ∧ 4 * width.toNat ≤ 2147483647 ∧
        4 * width.toNat * height.toNat ≤ 18446744073709551615 := by
  have hzero (n : UInt32) : n ≠ 0 ↔ n.toNat ≠ 0 := not_congr (UInt32.toNat_inj (b := 0)).symm
  have hbytes (hrow : 4 * width.toNat ≤ 2147483647) :
      4 * width.toNat * height.toNat ≤ 2147483647 * 4294967296 :=
    Nat.mul_le_mul hrow (Nat.le_of_lt height.toNat_lt)
  rw [Option.isSome_iff_ne_none, ne_eq, blank?_eq_none_iff, maxSurfaceWidth, hzero, hzero]
  omega

end Pixmap

namespace Job

/-- Of the jobs with pixels and a scale those are too wide that there is no surface for. -/
theorem validate_eq_tooWide_iff {j : Job} (hwidth : j.width ≠ 0) (hheight : j.height ≠ 0)
    (hscale : j.scale ≠ 0) :
    j.validate = .error (j.refuse .tooWide) ↔
      Pixmap.blank? j.width.toNat j.height.toNat = none := by
  have hempty : ¬ (j.width = 0 ∨ j.height = 0) := fun h => h.elim hwidth hheight
  have hzero {n : UInt32} (hn : n ≠ 0) : n.toNat ≠ 0 := fun h => hn (UInt32.toNat_inj.1 h)
  have hnone : Pixmap.blank? j.width.toNat j.height.toNat = none ↔
      maxSurfaceWidth < j.width.toNat := by
    rw [Pixmap.blank?_eq_none_iff]
    simp only [hzero hwidth, hzero hheight, false_or]
  rw [hnone, validate_eq_refuse_iff, problem?, if_neg hempty, if_neg hscale]
  by_cases hwide : maxSurfaceWidth < j.width.toNat
  · rw [if_pos hwide]
    exact iff_of_true rfl hwide
  · rw [if_neg hwide]
    refine iff_of_false (fun hproblem => ?_) hwide
    split at hproblem
    · cases hproblem
    · cases hproblem

end Job

namespace Compositor

variable {c : Compositor} {v : Viewport} {surface : Pixmap} {tiles : List (TileResult Pixmap)}
  {target : Image}

/-- Tiles are composed on the surface, and all of the target is painted. -/
structure Paints (c : Compositor) (v : Viewport) (surface : Pixmap)
    (tiles : List (TileResult Pixmap)) (target : Image) : Prop where
  /-- The background and the tiles are laid on the surface, and the guide lines drawn over them. -/
  drawn : c.composite target v tiles = (do
    let canvas ← c.lay v surface tiles
    let final ← c.drawAxes v canvas
    return final.toImage)
  /-- What was on the target before does not show. -/
  congr : ∀ target' : Image, target'.width = target.width → target'.height = target.height →
    c.composite target' v tiles = c.composite target v tiles
  /-- Nothing but a tile that reaches out of the 32-bit plane keeps the target from being painted. -/
  exists_iff : (∃ out, c.composite target v tiles = .ok out) ↔ ∀ t ∈ tiles, t.IsPlaced c.layout
  /-- There is a pixel of the canvas for each pixel of the target. -/
  cell?_eq : ∀ out, c.composite target v tiles = .ok out →
    out.width = target.width ∧ out.height = target.height ∧
      ∃ canvas final, c.lay v surface tiles = .ok canvas ∧ c.drawAxes v canvas = .ok final ∧
        ∀ px py, px < target.width → py < target.height →
          ∃ p, final.cell? px py = some p ∧ out.cell? px py = some p.straighten ∧
            p.IsStraightened p.straighten

theorem paints_of_surface (hscale : v.scale ≠ 0)
    (hsurface : Pixmap.blank? target.width target.height = some surface) :
    c.Paints v surface tiles target where
  drawn := composite_of_surface hsurface
  congr target' hwidth hheight := (composite_congr hwidth.symm hheight.symm hsurface).symm
  exists_iff := exists_composite_iff hscale hsurface
  cell?_eq out hout := by
    cases hlay : c.lay v surface tiles with
    | error fault =>
      rw [composite_of_lay_error hsurface hlay] at hout
      cases hout
    | ok canvas =>
      obtain ⟨final, hfinal, hcomposite, hwidth, hheight⟩ :=
        exists_composite_of_lay hscale hsurface hlay
      obtain rfl : out = final.toImage := Except.ok.inj (hout.symm.trans hcomposite)
      refine ⟨hwidth, hheight, canvas, final, rfl, hfinal, fun px py hpx hpy => ?_⟩
      obtain ⟨p, hp⟩ := Raster.exists_cell? (hwidth ▸ hpx) (hheight ▸ hpy)
      refine ⟨p, hp, ?_, p.isStraightened_straighten⟩
      rw [Pixmap.toImage, Raster.cell?_map, hp, Option.map_some]

/-- No accepted job is passed over. There is a surface for it, on which its tiles are composed and
all of the target is painted, and the tiles of its grid never fail to be. For that, the jobs that are
too wide are those that there is no surface for. A target that there is none for stays as it is. -/
theorem accepted_job_is_painted (c : Compositor) :
    (∀ j : Job, j.validate = .ok () →
      ∃ v a surface, j.viewport = .ok v ∧ v.worldArea = .ok a ∧
        Pixmap.blank? j.width.toNat j.height.toNat = some surface ∧
        ∀ target : Image, target.width = j.width.toNat → target.height = j.height.toNat →
          ∀ tiles, c.Paints v surface tiles target ∧
            (c.layout.depth.toNat ≤ 2147483647 →
              TileResult.OnGrid c.layout (Grid.covering a c.layout) tiles →
              ∃ out, c.composite target v tiles = .ok out)) ∧
    (∀ width height : UInt32, (Pixmap.blank? width.toNat height.toNat).isSome = true ↔
      width ≠ 0 ∧ height ≠ 0 ∧ 4 * width.toNat ≤ 2147483647 ∧
        4 * width.toNat * height.toNat ≤ 18446744073709551615) ∧
    (∀ j : Job, j.width ≠ 0 → j.height ≠ 0 → j.scale ≠ 0 →
      (j.validate = .error (j.refuse .tooWide) ↔
        Pixmap.blank? j.width.toNat j.height.toNat = none)) ∧
    ∀ (target : Image) (v : Viewport) (tiles : List (TileResult Pixmap)),
      target.width = 0 ∨ target.height = 0 ∨ maxSurfaceWidth < target.width →
      c.composite target v tiles = .ok target := by
  refine ⟨fun j hvalid => ?_, Pixmap.isSome_blank?_iff, fun j => Job.validate_eq_tooWide_iff,
    fun target v tiles hnone => composite_of_no_surface (Pixmap.blank?_eq_none_iff.2 hnone)⟩
  have h := Job.validate_eq_ok_iff.1 hvalid
  obtain ⟨v, a, hview, harea, hsees⟩ := h.exists_sees
  obtain ⟨surface, hsurface⟩ := h.exists_surface
  refine ⟨v, a, surface, hview, harea, hsurface, fun target hwidth hheight tiles => ?_⟩
  rw [← hwidth, ← hheight] at hsurface
  have hpaints : c.Paints v surface tiles target :=
    paints_of_surface (hsees.scale ▸ h.scale_ne_zero) hsurface
  exact ⟨hpaints, fun hdepth hgrid => hpaints.exists_iff.2 fun t => hgrid.isPlaced h hsees hdepth⟩

section Pair

/-- Two pixels, over a tile without an image. -/
private def pairJob : Job := ⟨2, 1, 1, none, ⟨0, []⟩⟩

private def overwideJob : Job := ⟨536870912, 1, 1, none, ⟨0, []⟩⟩

private def pairCompositor : Compositor := ⟨.ofFootprint 8 8, .black, axisGray⟩

private def pairTarget (old : Color) : Image := Raster.replicate 2 1 old

/-- Two targets become the same picture, an empty one stays, and a job is too wide by one pixel. -/
theorem accepted_job_is_painted_pairJob :
    pairJob.validate = .ok () ∧
      (∃ v out, pairJob.viewport = .ok v ∧
        pairCompositor.composite (pairTarget .black) v [⟨⟨0, 0⟩, none⟩] = .ok out ∧
        pairCompositor.composite (pairTarget axisGray) v [⟨⟨0, 0⟩, none⟩] = .ok out) ∧
      overwideJob.validate = .error (overwideJob.refuse .tooWide) ∧
      ∀ v, pairCompositor.composite (Raster.replicate 0 1 .black) v [] =
        .ok (Raster.replicate 0 1 .black) := by
  have hvalid : pairJob.validate = .ok () := by decide
  obtain ⟨hpaint, -, hwide, hkeep⟩ := accepted_job_is_painted pairCompositor
  obtain ⟨v, a, surface, hview, -, -, hall⟩ := hpaint pairJob hvalid
  obtain ⟨hpaints, -⟩ := hall (pairTarget .black) rfl rfl [⟨⟨0, 0⟩, none⟩]
  obtain ⟨out, hout⟩ := hpaints.exists_iff.2 (by simp [TileResult.IsPlaced])
  refine ⟨hvalid, ⟨v, out, hview, hout, (hpaints.congr _ rfl rfl).trans hout⟩,
    (hwide overwideJob (by decide) (by decide) (by decide)).2
      (Pixmap.blank?_eq_none_iff.2 (by decide)),
    fun v => hkeep _ v [] (.inl rfl)⟩

end Pair

end Compositor

end WorldMap
