import WorldMap.Proofs.Tiles.Guides
import WorldMap.Proofs.Tiles.Surface
/-!
# Every pixel at its world position

At one world point per pixel a canvas depicts the world: pixel `(px, py)` shows the world point that
`Viewport.toWorld` has for it. Each tile that is drawn keeps that up, so that in the end a pixel
shows what all tiles make of its world point (`Compositor.shade`), with the guide lines over it.

Of the drawing itself no more is used than that it blends an image over a canvas, moved by a whole
number of pixels (`Drawing.Blends`), so all of this is shown of any way to draw that does so. The
one of `Pixmap.drawImage` does where single precision has room for tile and output side by side.
-/

namespace WorldMap

/-- A way to draw an image on a canvas, which is asked as `Pixmap.drawImage` is. -/
abbrev Drawing := Pixmap → Pixmap → Int → Int → Int → Int → UInt32 → Pixmap

/-- What is taken for granted of a way to draw: over a canvas of the size of the output it blends
the image of a tile, each pixel of it over the one that it is moved to. -/
def Drawing.Blends (draw : Drawing) (l : Layout) (v : Viewport) (tiles : List (TileResult Pixmap)) :
    Prop :=
  ∀ t ∈ tiles, ∀ image, t.image = some image → ∀ canvas : Pixmap,
    canvas.width = v.width.toNat → canvas.height = v.height.toNat →
    canvas.Blended image (t.tile.originX l - v.offsetX.toInt) (t.tile.originZ l - v.offsetY.toInt)
      (draw canvas image (t.tile.originX l) (t.tile.originZ l) v.offsetX.toInt v.offsetY.toInt
        v.scale)

namespace Compositor

/-- `Compositor.drawTile` by whichever way to draw. -/
def drawTileBy (draw : Drawing) (c : Compositor) (v : Viewport) (canvas : Pixmap)
    (t : TileResult Pixmap) : Checked Pixmap :=
  match t.image with
  | none => .ok canvas
  | some image => do
    let x := (Int32.ofInt (t.tile.originX c.layout)).toInt
    let y := (Int32.ofInt (t.tile.originZ c.layout)).toInt
    let _ ← IntRange.signed32.check .rectangle (x + image.width)
    let _ ← IntRange.signed32.check .rectangle (y + image.height)
    return draw canvas image x y v.offsetX.toInt v.offsetY.toInt v.scale

/-- `Compositor.composite` by whichever way to draw. -/
def compositeBy (draw : Drawing) (c : Compositor) (target : Image) (v : Viewport)
    (tiles : List (TileResult Pixmap)) : Checked Image :=
  match Pixmap.blank? target.width target.height with
  | none => .ok target
  | some surface => do
    let canvas ← tiles.foldlM (c.drawTileBy draw v) (surface.fill c.background)
    let canvas ← c.drawAxes v canvas
    return canvas.toImage

theorem compositeBy_drawImage (c : Compositor) : c.compositeBy Pixmap.drawImage = c.composite := rfl

end Compositor

/-! ### Canvases that depict the world -/

/-- The canvas has the size of the output, and its pixels are shaded by their world points, one for
each pixel. -/
structure Pixmap.Depicts (canvas : Pixmap) (v : Viewport) (shade : Int → Int → Pixel) : Prop where
  width_eq : canvas.width = v.width.toNat
  height_eq : canvas.height = v.height.toNat
  cell?_eq : ∀ px py, px < v.width.toNat → py < v.height.toNat →
    canvas.cell? px py = some (shade (px + v.offsetX.toInt) (py + v.offsetY.toInt))

namespace Compositor

variable {c : Compositor} {j : Job} {v : Viewport} {a : Area} {draw : Drawing} {canvas : Pixmap}
  {tiles : List (TileResult Pixmap)} {t : TileResult Pixmap} {shade : Int → Int → Pixel}

/-- A tile of the grid is drawn where it lies in the world. -/
theorem exists_drawTileBy (h : j.Accepted) (hsees : j.Sees v a)
    (hdepth : c.layout.depth.toNat ≤ 2147483647)
    (hgrid : TileResult.OnGrid c.layout (Grid.covering a c.layout) tiles)
    (hdraw : draw.Blends c.layout v tiles) (ht : t ∈ tiles) (hcanvas : canvas.Depicts v shade) :
    ∃ next, c.drawTileBy draw v canvas t = .ok next ∧
      next.Depicts v fun x z => t.overlay c.layout x z (shade x z) := by
  cases himage : t.image with
  | none =>
    refine ⟨canvas, by rw [drawTileBy, himage], hcanvas.width_eq, hcanvas.height_eq, ?_⟩
    intro px py hpx hpy
    rw [hcanvas.cell?_eq px py hpx hpy, TileResult.overlay_of_none himage]
  | some image =>
    obtain ⟨⟨hx, hright⟩, hz, hbottom⟩ := hgrid.footprint_mem h hsees hdepth ht himage
    have hblended := hdraw t ht image himage canvas hcanvas.width_eq hcanvas.height_eq
    refine ⟨_, ?_, hblended.width_eq.trans hcanvas.width_eq,
      hblended.height_eq.trans hcanvas.height_eq, ?_⟩
    · simp only [drawTileBy, himage, IntRange.toInt_ofInt hx, IntRange.toInt_ofInt hz,
        IntRange.check_of_mem hright, IntRange.check_of_mem hbottom]
      rfl
    · intro px py hpx hpy
      have hplaceX : (px : Int) - (t.tile.originX c.layout - v.offsetX.toInt) =
          px + v.offsetX.toInt - t.tile.originX c.layout := by omega
      have hplaceZ : (py : Int) - (t.tile.originZ c.layout - v.offsetY.toInt) =
          py + v.offsetY.toInt - t.tile.originZ c.layout := by omega
      rw [hblended.cell?_eq px py (hcanvas.width_eq ▸ hpx) (hcanvas.height_eq ▸ hpy),
        hcanvas.cell?_eq px py hpx hpy, hplaceX, hplaceZ, TileResult.overlay, himage]
      rfl

/-- What every tile keeps up, all of them do. -/
theorem exists_foldlM_drawTileBy
    (hstep : ∀ t ∈ tiles, ∀ (canvas : Pixmap) (shade : Int → Int → Pixel), canvas.Depicts v shade →
      ∃ next, c.drawTileBy draw v canvas t = .ok next ∧
        next.Depicts v fun x z => t.overlay c.layout x z (shade x z))
    (hcanvas : canvas.Depicts v shade) :
    ∃ final, tiles.foldlM (c.drawTileBy draw v) canvas = .ok final ∧
      final.Depicts v fun x z => tiles.foldl (fun d t => t.overlay c.layout x z d) (shade x z) := by
  -- Each tile leaves another canvas and another shade behind, so both are kept general.
  induction tiles generalizing canvas shade with
  | nil => exact ⟨canvas, rfl, hcanvas⟩
  | cons t tiles ih =>
    obtain ⟨next, hnext, hdepicts⟩ := hstep t List.mem_cons_self canvas shade hcanvas
    obtain ⟨final, hfinal, hall⟩ :=
      ih (fun t' ht' => hstep t' (List.mem_cons_of_mem t ht')) hdepicts
    refine ⟨final, ?_, hall⟩
    rw [List.foldlM_cons, hnext]
    exact hfinal

/-! ### Guide lines -/

/-- At one world point per pixel the middle is as far into the output as the offset is before the
world origin. -/
theorem middle_eq (hsees : j.Sees v a) (hscale : j.scale = 1) :
    ((j.width.toNat / 2 : Nat) : Int) + v.offsetX.toInt = 0 ∧
      ((j.height.toNat / 2 : Nat) : Int) + v.offsetY.toInt = 0 := by
  have hone : j.scale.toNat = 1 := by rw [hscale]; rfl
  have hoffsetX := hsees.offsetX
  have hoffsetY := hsees.offsetY
  rw [hone, Nat.mul_one] at hoffsetX hoffsetY
  omega

/-- The guide lines are the row and the column of the world origin. -/
theorem exists_depicts_drawAxes (h : j.Accepted) (hsees : j.Sees v a) (hscale : j.scale = 1)
    (hwidth : j.width.toNat ≤ 16777216) (hheight : j.height.toNat ≤ 16777216)
    (hcanvas : canvas.Depicts v shade) :
    ∃ final, c.drawAxes v canvas = .ok final ∧
      final.Depicts v fun x z => c.guide x z (shade x z) := by
  obtain ⟨hmiddleX, hmiddleY⟩ := middle_eq hsees hscale
  obtain ⟨final, hfinal, hguided⟩ := exists_guided (c := c)
    (hsees.toOutput_origin h) (hcanvas.width_eq ▸ hsees.width ▸ hwidth)
    (hcanvas.height_eq ▸ hsees.height ▸ hheight)
  refine ⟨final, hfinal, hguided.width_eq.trans hcanvas.width_eq,
    hguided.height_eq.trans hcanvas.height_eq, fun px py hpx hpy => ?_⟩
  have hplaceX : (px : Int) - (j.width.toNat / 2 : Nat) = px + v.offsetX.toInt := by omega
  have hplaceZ : (py : Int) - (j.height.toNat / 2 : Nat) = py + v.offsetY.toInt := by omega
  rw [hguided.cell?_eq, hcanvas.cell?_eq px py hpx hpy, hplaceX, hplaceZ]
  rfl

/-! ### The output -/

/-- The output is of the size of the job, and a pixel of it shows what the tiles make of its world
point, under the guide lines. -/
theorem exists_compositeBy (h : j.Accepted) (hsees : j.Sees v a) (hscale : j.scale = 1)
    (hwidth : j.width.toNat ≤ 16777216) (hheight : j.height.toNat ≤ 16777216)
    (hdepth : c.layout.depth.toNat ≤ 2147483647) {target : Image}
    (htargetW : target.width = j.width.toNat) (htargetH : target.height = j.height.toNat)
    (hgrid : TileResult.OnGrid c.layout (Grid.covering a c.layout) tiles)
    (hdraw : draw.Blends c.layout v tiles) :
    ∃ out, c.compositeBy draw target v tiles = .ok out ∧ out.width = j.width.toNat ∧
      out.height = j.height.toNat ∧
      ∀ px py, px < j.width.toNat → py < j.height.toNat → out.cell? px py =
        some (c.guide (px + v.offsetX.toInt) (py + v.offsetY.toInt)
          (c.shade tiles (px + v.offsetX.toInt) (py + v.offsetY.toInt))).straighten := by
  obtain ⟨surface, hsurface⟩ := h.exists_surface
  obtain ⟨-, hsurfaceW, hsurfaceH⟩ := Pixmap.size_of_blank? hsurface
  have hfill : (surface.fill c.background).Depicts v fun _ _ => c.background.paint := by
    refine ⟨hsurfaceW.trans (by rw [hsees.width]), hsurfaceH.trans (by rw [hsees.height]), ?_⟩
    intro px py hpx hpy
    rw [Pixmap.fill, Raster.cell?_replicate, hsurfaceW, hsurfaceH, ← hsees.width, ← hsees.height,
      if_pos ⟨hpx, hpy⟩]
  obtain ⟨canvas, hcanvas, hshaded⟩ := exists_foldlM_drawTileBy
    (fun t ht _ _ => exists_drawTileBy h hsees hdepth hgrid hdraw ht) hfill
  obtain ⟨final, hfinal, hguided⟩ :=
    exists_depicts_drawAxes (c := c) h hsees hscale hwidth hheight hshaded
  refine ⟨final.toImage, ?_, ?_, ?_, ?_⟩
  · simp only [compositeBy, htargetW, htargetH, hsurface, hcanvas, hfinal, bind, Except.bind, pure,
      Except.pure]
  · exact hguided.width_eq.trans (by rw [hsees.width])
  · exact hguided.height_eq.trans (by rw [hsees.height])
  · intro px py hpx hpy
    rw [Pixmap.toImage, Raster.cell?_map,
      hguided.cell?_eq px py (hsees.width ▸ hpx) (hsees.height ▸ hpy)]
    rfl

/-- The color of a pixel for the world point `(wx, wy)`. If there is an image of the tile under the
point, it is that of the pixel that the image has there, blended over the background, and a copy of
it if it is opaque. If there is none it is that of the background. -/
structure Colors (c : Compositor) (tiles : List (TileResult Pixmap)) (wx wy : Int)
    (color : Option Color) : Prop where
  of_image : ∀ image, ⟨Tile.containing wx wy c.layout, some image⟩ ∈ tiles →
    ∃ p,
      image.at? (wx - (Tile.containing wx wy c.layout).originX c.layout)
        (wy - (Tile.containing wx wy c.layout).originZ c.layout) = some p ∧
      color = some (p.onto c.background.paint).straighten ∧
      (p.a = 255 → color = some ⟨p.r, p.g, p.b, 255⟩)
  of_background : (∀ image, ⟨Tile.containing wx wy c.layout, some image⟩ ∉ tiles) →
    color = some c.background.paint.straighten

/-- A composition of tiles that puts every pixel at its world position. -/
structure Places (c : Compositor) (j : Job) (v : Viewport)
    (compose : List (TileResult Pixmap) → Checked Image) (tiles : List (TileResult Pixmap)) :
    Prop where
  /-- There is an output, and its pixels away from the guide lines have the colors of their world
  points. -/
  pixel : ∃ out, compose tiles = .ok out ∧ out.width = j.width.toNat ∧ out.height = j.height.toNat ∧
    ∀ px py : UInt32, px < j.width → py < j.height → px ≠ j.width / 2 → py ≠ j.height / 2 →
      ∃ wx wy, v.toWorld px py = .ok (wx, wy) ∧
        c.Colors tiles wx wy (out.cell? px.toNat py.toNat)
  /-- If the tile `u` fails, no pixel outside of its footprint is another. -/
  failure : ∀ u, ∃ out out', compose tiles = .ok out ∧
    compose (tiles.map (TileResult.failing u)) = .ok out' ∧
    ∀ px py : UInt32, px < j.width → py < j.height →
      ∃ wx wy, v.toWorld px py = .ok (wx, wy) ∧
        (¬ u.Covers c.layout wx wy → out'.cell? px.toNat py.toNat = out.cell? px.toNat py.toNat)
  /-- The order of the tiles does not matter. -/
  order : ∀ tiles', tiles'.Perm tiles → compose tiles' = compose tiles

/-- At one world point per pixel a pixel of the output has its world point in the area, and it is
the point that `toWorld` has for it. -/
theorem toWorld_of_lt (h : j.Accepted) (hsees : j.Sees v a) (hscale : j.scale = 1) {px py : UInt32}
    (hpx : px.toNat < j.width.toNat) (hpy : py.toNat < j.height.toNat) :
    v.toWorld px py = .ok (px.toNat + v.offsetX.toInt, py.toNat + v.offsetY.toInt) ∧
      a.contains (px.toNat + v.offsetX.toInt) (py.toNat + v.offsetY.toInt) = true := by
  have hone : j.scale.toNat = 1 := by rw [hscale]; rfl
  have hsideX := h.sideX_le
  have hsideY := h.sideY_le
  rw [hone, Nat.mul_one, Job.maxWorldSide] at hsideX hsideY
  constructor
  · rw [Viewport.toWorld_eq, hsees.scale, hone]
    · simp only [Int.natCast_one, Int.mul_one]
    · rw [hsees.scale, hone]
      omega
    · rw [hsees.scale, hone]
      omega
  · rw [hsees.area_contains_iff, hone]
    omega

/-- What the tiles make of a world point is the color that it has. -/
theorem colors_shade (h : j.Accepted) (hsees : j.Sees v a)
    (hgrid : TileResult.OnGrid c.layout (Grid.covering a c.layout) tiles) {wx wy : Int}
    (hcontains : a.contains wx wy = true) :
    c.Colors tiles wx wy (some (c.shade tiles wx wy).straighten) := by
  obtain ⟨-, hcovers⟩ := Grid.containing_mem_covering (hsees.isEmpty_eq h)
    (hsees.ceilDiv_maxX_mem h c.layout) (hsees.ceilDiv_maxY_mem h c.layout) hcontains
  constructor
  · intro image himage
    obtain ⟨p, hat, hover⟩ := hgrid.exists_at? (d := c.background.paint) himage rfl hcovers
    rw [shade_of_mem hgrid himage hcovers, hover]
    refine ⟨p, hat, rfl, fun halpha => ?_⟩
    rw [Pixel.onto_of_opaque halpha, Pixel.straighten_of_opaque halpha]
  · intro hnone
    rw [shade_of_forall hgrid]
    intro t ht hcovers'
    cases himage : t.image with
    | none => rfl
    | some image =>
      have htile : t = ⟨Tile.containing wx wy c.layout, some image⟩ := by
        rw [← hcovers'.unique hcovers, ← himage]
      exact absurd (htile ▸ ht) (hnone image)

end Compositor

namespace Drawing.Blends

variable {draw : Drawing} {l : Layout} {v : Viewport} {tiles tiles' : List (TileResult Pixmap)}

theorem perm (hdraw : draw.Blends l v tiles) (hperm : tiles'.Perm tiles) :
    draw.Blends l v tiles' := fun t ht => hdraw t (hperm.mem_iff.1 ht)

theorem map_failing (hdraw : draw.Blends l v tiles) (u : Tile) :
    draw.Blends l v (tiles.map (TileResult.failing u)) := by
  intro t' ht' image himage
  obtain ⟨t, ht, rfl⟩ := List.mem_map.1 ht'
  rw [TileResult.tile_failing]
  exact hdraw t ht image (TileResult.image_of_failing himage)

end Drawing.Blends

namespace Compositor

variable {c : Compositor} {j : Job} {v : Viewport} {a : Area} {draw : Drawing} {target : Image}
  {tiles : List (TileResult Pixmap)}

/-- Any way to draw that blends puts every pixel at its world position. -/
theorem places_compositeBy (h : j.Accepted) (hsees : j.Sees v a) (hscale : j.scale = 1)
    (hwidth : j.width.toNat ≤ 16777216) (hheight : j.height.toNat ≤ 16777216)
    (hdepth : c.layout.depth.toNat ≤ 2147483647)
    (htargetW : target.width = j.width.toNat) (htargetH : target.height = j.height.toNat)
    (hgrid : TileResult.OnGrid c.layout (Grid.covering a c.layout) tiles)
    (hdraw : draw.Blends c.layout v tiles) :
    c.Places j v (c.compositeBy draw target v) tiles := by
  have hcompose {tiles' : List (TileResult Pixmap)}
      (hgrid' : TileResult.OnGrid c.layout (Grid.covering a c.layout) tiles')
      (hdraw' : draw.Blends c.layout v tiles') :=
    exists_compositeBy h hsees hscale hwidth hheight hdepth htargetW htargetH hgrid' hdraw'
  obtain ⟨out, hout, houtW, houtH, hcell⟩ := hcompose hgrid hdraw
  refine ⟨⟨out, hout, houtW, houtH, fun px py hpx hpy hx hy => ?_⟩, fun u => ?_,
    fun tiles' hperm => ?_⟩
  · obtain ⟨hworld, hcontains⟩ := toWorld_of_lt h hsees hscale hpx hpy
    obtain ⟨hmiddleX, hmiddleY⟩ := middle_eq hsees hscale
    have hx' : px.toNat ≠ j.width.toNat / 2 := fun heq => hx (UInt32.toNat_inj.1 heq)
    have hy' : py.toNat ≠ j.height.toNat / 2 := fun heq => hy (UInt32.toNat_inj.1 heq)
    refine ⟨_, _, hworld, ?_⟩
    rw [hcell px.toNat py.toNat hpx hpy, guide_of_ne (by omega) (by omega)]
    exact colors_shade h hsees hgrid hcontains
  · obtain ⟨out', hout', -, -, hcell'⟩ := hcompose (hgrid.map_failing u) (hdraw.map_failing u)
    refine ⟨out, out', hout, hout', fun px py hpx hpy => ?_⟩
    obtain ⟨hworld, -⟩ := toWorld_of_lt h hsees hscale hpx hpy
    refine ⟨_, _, hworld, fun houtside => ?_⟩
    rw [hcell' px.toNat py.toNat hpx hpy, hcell px.toNat py.toNat hpx hpy,
      shade_map_failing hgrid houtside]
  · obtain ⟨out', hout', houtW', houtH', hcell'⟩ := hcompose (hgrid.perm hperm) (hdraw.perm hperm)
    have hsame : out' = out := by
      refine Raster.eq_of_cell? (houtW'.trans houtW.symm) (houtH'.trans houtH.symm) ?_
      intro px py hpx hpy
      rw [houtW'] at hpx
      rw [houtH'] at hpy
      rw [hcell' px py hpx hpy, hcell px py hpx hpy, shade_perm (hgrid.perm hperm) hperm]
    rw [hout', hout, hsame]

/-- `Pixmap.drawImage` blends, as far as single precision has room for tile and output. -/
theorem blends_drawImage (h : j.Accepted) (hsees : j.Sees v a) (hscale : j.scale = 1)
    (hgrid : TileResult.OnGrid c.layout (Grid.covering a c.layout) tiles)
    (hwide : c.layout.width.toNat ≤ 8388607) (hdeep : c.layout.depth.toNat ≤ 8388607)
    (hwidth : c.layout.width.toNat + j.width.toNat ≤ 16777216)
    (hheight : c.layout.depth.toNat + j.height.toNat ≤ 16777216) :
    Drawing.Blends Pixmap.drawImage c.layout v tiles := by
  intro t ht image himage canvas hcanvasW hcanvasH
  obtain ⟨x, z, hcontains, hcovers⟩ :=
    (hsees.contains_covering_iff h).1 (hgrid.contains t ht)
  obtain ⟨⟨hx, hx'⟩, hz, hz'⟩ := hsees.area_contains_iff.1 hcontains
  have hone : j.scale.toNat = 1 := by rw [hscale]; rfl
  have hoffsetX := hsees.offsetX
  have hoffsetY := hsees.offsetY
  have hposX := h.width_pos
  have hposY := h.height_pos
  rw [hone, Nat.mul_one] at hoffsetX hoffsetY hx' hz'
  rw [hsees.width] at hcanvasW
  rw [hsees.height] at hcanvasH
  have himageW := hgrid.width_eq t ht image himage
  have himageH := hgrid.height_eq t ht image himage
  have hlayoutW := c.layout.width_pos
  have hlayoutH := c.layout.depth_pos
  have hlandsX : Span.Lands (t.tile.originX c.layout) image.width v.offsetX.toInt canvas.width := by
    obtain ⟨hleft, hright, -, -⟩ := hcovers
    constructor <;> omega
  have hlandsY :
      Span.Lands (t.tile.originZ c.layout) image.height v.offsetY.toInt canvas.height := by
    obtain ⟨-, -, htop, hbottom⟩ := hcovers
    constructor <;> omega
  rw [hsees.scale, hscale]
  refine Pixmap.blended_drawImage hlandsX hlandsY ?_
  -- Only an output of one pixel begins at the world origin, and that pixel is all of its area.
  rintro ⟨hzeroX, hzeroY⟩
  obtain rfl : x = 0 := by omega
  obtain rfl : z = 0 := by omega
  obtain ⟨hcolumn, hrow⟩ := Tile.covers_iff.1 hcovers
  rw [Tile.originX, Tile.originZ, ← hcolumn, ← hrow]
  simp only [Int.zero_ediv, Int.zero_mul, and_self]

/-- Tiles are composed so that every pixel is at its world position. For a job that is accepted and
sees one world point per pixel, that holds of any way to draw that blends the images of the tiles
over the canvas; and of `Compositor.composite` itself as long as the sides of a tile stay below two
to the power 23, and those of tile and output together within two to the power 24. -/
theorem composite_places (hvalid : j.validate = .ok ()) (hscale : j.scale = 1)
    (hwidth : j.width.toNat ≤ 16777216) (hheight : j.height.toNat ≤ 16777216)
    (hdepth : c.layout.depth.toNat ≤ 2147483647)
    (hview : j.viewport = .ok v) (harea : v.worldArea = .ok a)
    (htargetW : target.width = j.width.toNat) (htargetH : target.height = j.height.toNat)
    (hgrid : TileResult.OnGrid c.layout (Grid.covering a c.layout) tiles) :
    (∀ draw : Drawing, draw.Blends c.layout v tiles →
      c.Places j v (c.compositeBy draw target v) tiles) ∧
    (c.layout.width.toNat ≤ 8388607 → c.layout.depth.toNat ≤ 8388607 →
      c.layout.width.toNat + j.width.toNat ≤ 16777216 →
      c.layout.depth.toNat + j.height.toNat ≤ 16777216 →
      c.Places j v (c.composite target v) tiles) := by
  have h := Job.validate_eq_ok_iff.1 hvalid
  obtain ⟨v', a', hview', harea', hsees⟩ := h.exists_sees
  obtain rfl : v' = v := Except.ok.inj (hview'.symm.trans hview)
  obtain rfl : a' = a := Except.ok.inj (harea'.symm.trans harea)
  have hplaces (draw : Drawing) (hdraw : draw.Blends c.layout v' tiles) :=
    places_compositeBy h hsees hscale hwidth hheight hdepth htargetW htargetH hgrid hdraw
  refine ⟨hplaces, fun hwide hdeep hwide' hdeep' => ?_⟩
  have hblends := blends_drawImage h hsees hscale hgrid hwide hdeep hwide' hdeep'
  rw [← compositeBy_drawImage]
  exact hplaces Pixmap.drawImage hblends

section Corner

/-- Five by three pixels, over tiles of two by two points. -/
private def cornerJob : Job := ⟨5, 3, 1, none, ⟨0, []⟩⟩

private def cornerView : Viewport := ⟨5, 3, 1, -2, -1⟩

private def cornerArea : Area := ⟨-2, -1, 5, 3⟩

private def cornerCompositor : Compositor := ⟨.ofFootprint 2 2, .black, axisGray⟩

private def cornerTarget : Image := Raster.replicate 5 3 .black

private def cornerImage : Pixmap := Raster.replicate 2 2 ⟨9, 8, 7, 255⟩

/-- The tile on the left of the origin has an image, the one on its right failed. -/
private def cornerTiles : List (TileResult Pixmap) := [⟨⟨-1, 0⟩, some cornerImage⟩, ⟨⟨0, 0⟩, none⟩]

private theorem onGrid_cornerTiles :
    TileResult.OnGrid cornerCompositor.layout
      (Grid.covering cornerArea cornerCompositor.layout) cornerTiles := by
  have himage : ∀ t ∈ cornerTiles, ∀ image, t.image = some image → image = cornerImage := by
    simp [cornerTiles, eq_comm]
  constructor
  · decide
  · decide
  · rintro t ht image h
    rw [himage t ht image h]
    rfl
  · rintro t ht image h
    rw [himage t ht image h]
    rfl
  · rintro t ht image h
    rw [himage t ht image h]
    exact ⟨_, rfl⟩

/-- The pixel at the lower left shows that of the tile on the left, and one on the lower right shows
the background where the tile failed. -/
theorem composite_places_cornerTiles :
    cornerJob.validate = .ok () ∧
      Drawing.Blends Pixmap.drawImage cornerCompositor.layout cornerView cornerTiles ∧
      cornerCompositor.Places cornerJob cornerView
        (cornerCompositor.compositeBy Pixmap.drawImage cornerTarget cornerView) cornerTiles ∧
      ∃ out, cornerCompositor.composite cornerTarget cornerView cornerTiles = .ok out ∧
        out.cell? 0 2 = some ⟨9, 8, 7, 255⟩ ∧
        out.cell? 3 2 = some cornerCompositor.background.paint.straighten := by
  have hvalid : cornerJob.validate = .ok () := by decide
  have hview : cornerJob.viewport = .ok cornerView := rfl
  have harea : cornerView.worldArea = .ok cornerArea := rfl
  have hsees : cornerJob.Sees cornerView cornerArea :=
    ⟨rfl, rfl, rfl, by decide, by decide, rfl, rfl, rfl, rfl⟩
  have hwidth : cornerTarget.width = cornerJob.width.toNat := rfl
  have hheight : cornerTarget.height = cornerJob.height.toNat := rfl
  have hblends : Drawing.Blends Pixmap.drawImage cornerCompositor.layout cornerView cornerTiles :=
    blends_drawImage (Job.validate_eq_ok_iff.1 hvalid) hsees rfl onGrid_cornerTiles (by decide)
      (by decide) (by decide) (by decide)
  obtain ⟨hany, hplaces⟩ := composite_places hvalid rfl (by decide) (by decide) (by decide) hview
    harea hwidth hheight onGrid_cornerTiles
  obtain ⟨out, hout, -, -, hpixel⟩ :=
    (hplaces (by decide) (by decide) (by decide) (by decide)).pixel
  refine ⟨hvalid, hblends, hany Pixmap.drawImage hblends, out, hout, ?_, ?_⟩
  · obtain ⟨wx, wy, hworld, hcolors⟩ := hpixel 0 2 (by decide) (by decide) (by decide) (by decide)
    have hpoint : cornerView.toWorld 0 2 = .ok (-2, 1) := rfl
    obtain ⟨rfl, rfl⟩ := Prod.mk.inj (Except.ok.inj (hpoint.symm.trans hworld))
    obtain ⟨p, hp, -, hcopy⟩ := hcolors.of_image cornerImage List.mem_cons_self
    have hcell : some (⟨9, 8, 7, 255⟩ : Pixel) = some p := hp
    cases hcell
    exact hcopy rfl
  · obtain ⟨wx, wy, hworld, hcolors⟩ := hpixel 3 2 (by decide) (by decide) (by decide) (by decide)
    have hpoint : cornerView.toWorld 3 2 = .ok (1, 1) := rfl
    obtain ⟨rfl, rfl⟩ := Prod.mk.inj (Except.ok.inj (hpoint.symm.trans hworld))
    have htile : Tile.containing 1 1 cornerCompositor.layout = ⟨0, 0⟩ := rfl
    refine hcolors.of_background ?_
    rw [htile]
    simp [cornerTiles]

end Corner

end Compositor

end WorldMap
