import WorldMap.Proofs.Terrain.Layers
/-!
# Contour lines end at the borders of tiles

A tile of terrain is drawn from its own sample, which has the columns of that tile and no others. The
elevation layer needs no more than the column it colors, so the colors of heights are those of world
points, whatever the tiles are. The contour layer looks one column further: the neighbour that a point
is told apart from is only there if it belongs to the same tile (`Contours.OnLine`). A line that runs
along a border is not drawn, and that is the one thing in a preview that the layout can be told from.
-/

namespace WorldMap

variable {t : Tile} {l : Layout} {x z : Int}

instance (t : Tile) (l : Layout) (x z : Int) : Decidable (t.Covers l x z) :=
  decidable_of_iff ((t.originX l ≤ x ∧ x < t.originX l + l.width.toNat) ∧
      (t.originZ l ≤ z ∧ z < t.originZ l + l.depth.toNat))
    ⟨fun h => ⟨h.1.1, h.1.2, h.2.1, h.2.2⟩, fun h => ⟨⟨h.1, h.2⟩, h.3, h.4⟩⟩

/-- There is a surface with the size of a tile. -/
def Layout.HasSurface (l : Layout) : Prop := (Pixmap.blank? l.width.toNat l.depth.toNat).isSome

instance (l : Layout) : Decidable l.HasSurface := inferInstanceAs (Decidable (_ = true))

/-- A tile that has a surface is not too large to be answered. -/
theorem Terrain.query_of_hasSurface (terrain : Terrain) (t : Tile) (h : l.HasSurface) :
    terrain.source.query (t.volume l)
      = .ok (.ofField terrain.heightAt terrain.seaLevel (t.volume l)) := by
  obtain ⟨surface, hsurface⟩ := Option.isSome_iff_exists.1 h
  have hwidth := (Pixmap.size_of_blank? hsurface).1
  have hdepth := l.depth.toNat_lt
  have hcolumns : l.width.toNat * l.depth.toNat ≤ maxSurfaceWidth * 4294967295 :=
    Nat.mul_le_mul hwidth (by omega)
  exact query_source (Nat.le_trans hcolumns (by decide))

/-! ### Samples of a field by world points -/

namespace HeightSample

variable {h : Int → Int → Float32} {seaLevel : Float32}

/-- The sample of a tile has the field's height of each world point of the tile. -/
theorem at?_ofField_volume (hx : t.originX l ≤ x) (hz : t.originZ l ≤ z) :
    (ofField h seaLevel (t.volume l)).at? (x - t.originX l).toNat (z - t.originZ l).toNat
      = if t.Covers l x z then some (h x z) else none := by
  have hcolumn : t.originX l + ((x - t.originX l).toNat : Int) = x := by omega
  have hrow : t.originZ l + ((z - t.originZ l).toNat : Int) = z := by omega
  have hcovers : ((x - t.originX l).toNat < l.width.toNat ∧ (z - t.originZ l).toNat < l.depth.toNat)
      ↔ t.Covers l x z := by
    constructor
    · rintro ⟨hright, hbottom⟩
      exact ⟨hx, by omega, hz, by omega⟩
    · rintro ⟨-, hright, -, hbottom⟩
      omega
  rw [at?_ofField]
  refine (if_congr hcovers ?_ rfl)
  exact congrArg some (congrArg₂ h hcolumn hrow)

end HeightSample

namespace Contours

variable {c : Contours} {visible : Bool} {h : Int → Int → Float32} {seaLevel : Float32}
  {background : Color}

/-- The band of a world point differs from that of the point to the right of it or below it, as far
as they are points of the tile. -/
def OnLine (c : Contours) (h : Int → Int → Float32) (l : Layout) (t : Tile) (x z : Int) : Prop :=
  (t.Covers l (x + 1) z ∧ c.band (h (x + 1) z) ≠ c.band (h x z)) ∨
    (t.Covers l x (z + 1) ∧ c.band (h x (z + 1)) ≠ c.band (h x z))

instance (c : Contours) (h : Int → Int → Float32) (l : Layout) (t : Tile) (x z : Int) :
    Decidable (c.OnLine h l t x z) :=
  inferInstanceAs (Decidable (_ ∨ _))

/-- The pixel of a world point in the image of a tile. -/
def pointPixel (c : Contours) (visible : Bool) (h : Int → Int → Float32) (seaLevel : Float32)
    (l : Layout) (t : Tile) (x z : Int) : Pixel :=
  let p := (Elevation.color (h x z) seaLevel).premultiply
  if visible = true ∧ c.OnLine h l t x z then darken p else p

private theorem differs_iff {here : UInt32} {x' z' : Int} :
    c.differs here (if t.Covers l x' z' then some (h x' z') else none) = true ↔
      t.Covers l x' z' ∧ c.band (h x' z') ≠ here := by
  by_cases hthere : t.Covers l x' z'
  · rw [if_pos hthere]
    exact bne_iff_ne.trans (and_iff_right hthere).symm
  · rw [if_neg hthere]
    exact iff_of_false Bool.false_ne_true fun hline => hthere hline.1

/-- The columns of a sample are on a contour line as their world points are. -/
theorem crosses_ofField (hcovers : t.Covers l x z) :
    c.crosses (.ofField h seaLevel (t.volume l)) (x - t.originX l).toNat (z - t.originZ l).toNat
      = true ↔ c.OnLine h l t x z := by
  have hx := hcovers.originX_le
  have hz := hcovers.originZ_le
  have hright : (x - t.originX l).toNat + 1 = (x + 1 - t.originX l).toNat := by omega
  have hbelow : (z - t.originZ l).toNat + 1 = (z + 1 - t.originZ l).toNat := by omega
  rw [crosses, HeightSample.at?_ofField_volume hx hz, if_pos hcovers, Option.any_some, hright, hbelow,
    HeightSample.at?_ofField_volume (by omega) hz, HeightSample.at?_ofField_volume hx (by omega),
    Bool.or_eq_true, differs_iff, differs_iff]
  rfl

theorem pixel_ofField (hcovers : t.Covers l x z) :
    c.pixel visible (.ofField h seaLevel (t.volume l)) (x - t.originX l).toNat
        (z - t.originZ l).toNat (h x z) = c.pointPixel visible h seaLevel l t x z := by
  rw [pixel, pointPixel]
  simp only [Bool.and_eq_true, crosses_ofField hcovers]
  rfl

/-- An image that shows the sample of a tile shows the world points of the tile. -/
theorem Shows.at?_eq {image : Pixmap}
    (hshows : c.Shows visible (.ofField h seaLevel (t.volume l)) image) (hcovers : t.Covers l x z) :
    image.at? (x - t.originX l) (z - t.originZ l)
      = some (c.pointPixel visible h seaLevel l t x z) := by
  have hx := hcovers.originX_le
  have hz := hcovers.originZ_le
  rw [Raster.at?_of_nonneg (by omega) (by omega), hshows.cell?_eq,
    HeightSample.at?_ofField_volume hx hz, if_pos hcovers, Option.map_some, pixel_ofField hcovers]

/-- The pixels of a point in two images are the same if it is on a line of both tiles or of none. -/
theorem pointPixel_congr {m : Layout} {u : Tile}
    (hline : visible = true → (c.OnLine h l t x z ↔ c.OnLine h m u x z)) :
    c.pointPixel visible h seaLevel l t x z = c.pointPixel visible h seaLevel m u x z := by
  have hdark : (visible = true ∧ c.OnLine h l t x z) ↔ (visible = true ∧ c.OnLine h m u x z) :=
    and_congr_right hline
  simp only [pointPixel, hdark]

/-- An image of the tile comes out, and what it shows of the world point is the color of the point's
height, darkened if the contour layer is visible and has the point on a line. -/
structure ShowsPoint (c : Contours) (visible : Bool) (h : Int → Int → Float32) (seaLevel : Float32)
    (l : Layout) (background : Color) (t : Tile) (x z : Int) : Prop where
  exists_image : visible = false ∨ l.columns ≤ 4294967296 →
    ∃ image, (c.rasterizer visible l background).rasterize (.ofField h seaLevel (t.volume l))
      = .ok image
  at?_eq : ∀ image,
    (c.rasterizer visible l background).rasterize (.ofField h seaLevel (t.volume l)) = .ok image →
      image.at? (x - t.originX l) (z - t.originZ l)
        = some (c.pointPixel visible h seaLevel l t x z)

theorem showsPoint_of_covers (hsurface : l.HasSurface) (hcovers : t.Covers l x z) :
    c.ShowsPoint visible h seaLevel l background t x z where
  exists_image hends := by
    obtain ⟨image, himage, -⟩ := exists_rasterize HeightSample.suits_ofField hsurface hends
    exact ⟨image, himage⟩
  at?_eq image himage :=
    (shows_of_rasterize HeightSample.suits_ofField hsurface himage).at?_eq hcovers

/-- The color of a world point in a preview of terrain is that of its height, whatever the layout,
except on contour lines. Under every layout the tile of the point gives an image as long as its places
are words, and always if there are no contours to draw. A point is darkened if its band differs from
that of a neighbour in the same tile, so two layouts show it in the same color unless only one of them
has such a neighbour in the tile of the point. -/
theorem layout_shows_in_lines_alone (c : Contours) (visible : Bool) (h : Int → Int → Float32)
    (seaLevel : Float32) (x z : Int) :
    (∀ (l : Layout) (background : Color) (t : Tile), l.HasSurface → t.Covers l x z →
      c.ShowsPoint visible h seaLevel l background t x z) ∧
    (∀ (l m : Layout) (background background' : Color) (t u : Tile) (image image' : Pixmap),
      (l.HasSurface ∧ t.Covers l x z ∧ (c.rasterizer visible l background).rasterize
        (.ofField h seaLevel (t.volume l)) = .ok image) →
      (m.HasSurface ∧ u.Covers m x z ∧ (c.rasterizer visible m background').rasterize
        (.ofField h seaLevel (u.volume m)) = .ok image') →
      (visible = true → (c.OnLine h l t x z ↔ c.OnLine h m u x z)) →
      image.at? (x - t.originX l) (z - t.originZ l)
        = image'.at? (x - u.originX m) (z - u.originZ m)) ∧
    ∀ (terrain : Terrain) (l : Layout) (t : Tile), l.HasSurface →
      terrain.source.query (t.volume l)
        = .ok (.ofField terrain.heightAt terrain.seaLevel (t.volume l)) := by
  refine ⟨fun l background t hsurface hcovers => showsPoint_of_covers hsurface hcovers, ?_,
    fun terrain l t hsurface => terrain.query_of_hasSurface t hsurface⟩
  rintro l m background background' t u image image' ⟨hsurface, hcovers, himage⟩
    ⟨hsurface', hcovers', himage'⟩ hline
  rw [(showsPoint_of_covers hsurface hcovers).at?_eq image himage,
    (showsPoint_of_covers hsurface' hcovers').at?_eq image' himage', pointPixel_congr hline]

/-- Low ground up to column zero, and high ground from column one on. -/
private def cliff (x _ : Int) : Float32 := if x < 1 then 0.2 else 0.7

/-- Two columns to a tile. -/
private def twoColumns : Layout := Layout.ofFootprint 2 1

/-- The foot of the cliff is on a line if its tile is wide enough to have the top of it. -/
theorem layout_shows_in_lines_alone_cliff :
    ∃ image image',
      ((ofLevels 2).rasterizer true twoColumns .black).rasterize
        (.ofField cliff 0.4 (Tile.volume ⟨0, 0⟩ twoColumns)) = .ok image ∧
      ((ofLevels 2).rasterizer true .standard .transparent).rasterize
        (.ofField cliff 0.4 (Tile.volume ⟨0, 0⟩ .standard)) = .ok image' ∧
      image.at? 0 0 = some ⟨26, 52, 104, 255⟩ ∧ image.at? 0 0 = image'.at? 0 0 ∧
      ∃ s, (Terrain.ofSeed 5).source.query (Tile.volume ⟨0, 0⟩ twoColumns) = .ok s := by
  obtain ⟨hpoint, hsame, hquery⟩ := layout_shows_in_lines_alone (ofLevels 2) true cliff 0.4 0 0
  have hnarrow := hpoint twoColumns .black ⟨0, 0⟩ (by decide) (by decide)
  have hwide := hpoint .standard .transparent ⟨0, 0⟩ (by decide) (by decide)
  obtain ⟨image, himage⟩ := hnarrow.exists_image (by decide)
  obtain ⟨image', himage'⟩ := hwide.exists_image (by decide)
  have hline : true = true → ((ofLevels 2).OnLine cliff twoColumns ⟨0, 0⟩ 0 0 ↔
      (ofLevels 2).OnLine cliff .standard ⟨0, 0⟩ 0 0) := by decide +kernel
  have hcolor : (ofLevels 2).pointPixel true cliff 0.4 twoColumns ⟨0, 0⟩ 0 0
      = ⟨26, 52, 104, 255⟩ := by decide +kernel
  exact ⟨image, image', himage, himage', (hnarrow.at?_eq image himage).trans (congrArg some hcolor),
    hsame twoColumns .standard .black .transparent ⟨0, 0⟩ ⟨0, 0⟩ image image'
      ⟨by decide, by decide, himage⟩ ⟨by decide, by decide, himage'⟩ hline,
    _, hquery (Terrain.ofSeed 5) twoColumns ⟨0, 0⟩ (by decide)⟩

/-- One column to a tile. -/
private def oneColumn : Layout := Layout.ofFootprint 1 1

/-- With the top of the cliff in the next tile, its foot is not darkened. -/
theorem cliff_color_depends_on_layout :
    (twoColumns.HasSurface ∧ Tile.Covers ⟨0, 0⟩ twoColumns 0 0) ∧
    (oneColumn.HasSurface ∧ Tile.Covers ⟨0, 0⟩ oneColumn 0 0) ∧
    (ofLevels 2).band (cliff 1 0) ≠ (ofLevels 2).band (cliff 0 0) ∧
    ∃ image image',
      ((ofLevels 2).rasterizer true twoColumns .black).rasterize
        (.ofField cliff 0.4 (Tile.volume ⟨0, 0⟩ twoColumns)) = .ok image ∧
      ((ofLevels 2).rasterizer true oneColumn .black).rasterize
        (.ofField cliff 0.4 (Tile.volume ⟨0, 0⟩ oneColumn)) = .ok image' ∧
      image.at? 0 0 = some ⟨26, 52, 104, 255⟩ ∧ image'.at? 0 0 = some ⟨40, 80, 160, 255⟩ ∧
      image.at? 0 0 ≠ image'.at? 0 0 := by
  have hwide : (ofLevels 2).ShowsPoint true cliff 0.4 twoColumns .black ⟨0, 0⟩ 0 0 :=
    showsPoint_of_covers (by decide) (by decide)
  have hnarrow : (ofLevels 2).ShowsPoint true cliff 0.4 oneColumn .black ⟨0, 0⟩ 0 0 :=
    showsPoint_of_covers (by decide) (by decide)
  obtain ⟨image, himage⟩ := hwide.exists_image (by decide)
  obtain ⟨image', himage'⟩ := hnarrow.exists_image (by decide)
  have hdark : (ofLevels 2).pointPixel true cliff 0.4 twoColumns ⟨0, 0⟩ 0 0
      = ⟨26, 52, 104, 255⟩ := by decide +kernel
  have hplain : (ofLevels 2).pointPixel true cliff 0.4 oneColumn ⟨0, 0⟩ 0 0
      = ⟨40, 80, 160, 255⟩ := by decide +kernel
  have hshown : image.at? 0 0 = some ⟨26, 52, 104, 255⟩ :=
    (hwide.at?_eq image himage).trans (congrArg some hdark)
  have hshown' : image'.at? 0 0 = some ⟨40, 80, 160, 255⟩ :=
    (hnarrow.at?_eq image' himage').trans (congrArg some hplain)
  refine ⟨by decide, by decide, by decide +kernel, image, image', himage, himage', hshown, hshown',
    ?_⟩
  rw [hshown, hshown']
  decide

end Contours

end WorldMap
