import WorldMap.Proofs.Image.Drawing
import WorldMap.Proofs.Terrain.Seams
import WorldMap.Terrain.Contours
/-!
# What the layers of a terrain draw

Both layers go over their canvas pixel by pixel, and a pixel is the column of the sample at the same
place. The elevation layer looks at that column alone. The contour layer also looks at the columns to
the right of it and below it, in the sample as it is (`Contours.crosses`): beyond the last column and
the last row there is nothing to differ from.

The places that the contour layer computes on the way are words as long as the sample has no more
columns than there are words. In a larger one the layer breaks off, at the first column whose
neighbour has a place that is not a word.
-/

namespace WorldMap

/-! ### Computations one after the other -/

section mapM

variable {ε α β : Type} {f : α → Except ε β} {l : List α}

theorem mapM_eq_ok {g : α → β} (h : ∀ a ∈ l, f a = .ok (g a)) : l.mapM f = .ok (l.map g) := by
  induction l with
  | nil => rfl
  | cons a l ih =>
    rw [List.mapM_cons, h a List.mem_cons_self, ih fun b hb => h b (List.mem_cons_of_mem a hb)]
    rfl

/-- If all of them come to an end, each of them does. -/
theorem exists_of_mapM_eq_ok {bs : List β} (h : l.mapM f = .ok bs) :
    ∀ a ∈ l, ∃ b, f a = .ok b := by
  induction l generalizing bs with
  | nil => simp
  | cons a l ih =>
    rw [List.mapM_cons] at h
    cases hhead : f a with
    | error e =>
      rw [hhead] at h
      cases h
    | ok b =>
      rw [hhead] at h
      cases htail : l.mapM f with
      | error e =>
        rw [htail] at h
        cases h
      | ok cs =>
        intro a' ha'
        rcases List.mem_cons.1 ha' with rfl | hmem
        · exact ⟨b, hhead⟩
        · exact ih htail a' hmem

end mapM

namespace HeightSample

variable {s : HeightSample} {canvas : Pixmap} {i j : Nat}

/-- As many heights as columns. -/
def IsWhole (s : HeightSample) : Prop := s.heights.size = s.width.toNat * s.depth.toNat

/-- The canvas has a pixel for every column. -/
structure Fits (s : HeightSample) (canvas : Pixmap) : Prop where
  width_eq : canvas.width = s.width.toNat
  height_eq : canvas.height = s.depth.toNat

theorem checkSize_of_fits (h : s.Fits canvas) : s.checkSize canvas = .ok () :=
  if_pos ⟨h.width_eq, h.height_eq⟩

theorem at?_of_inside (hi : i < s.width.toNat) (hj : j < s.depth.toNat) :
    s.at? i j = s.heights[j * s.width.toNat + i]? :=
  if_pos ⟨hi, hj⟩

theorem at?_isSome_iff (h : s.IsWhole) :
    (s.at? i j).isSome ↔ i < s.width.toNat ∧ j < s.depth.toNat := by
  unfold at?
  split
  · rename_i hinside
    have hplace : j * s.width.toNat + i < s.heights.size := by
      rw [h]
      exact place_lt hinside.1 hinside.2
    rw [Array.getElem?_eq_getElem hplace]
    exact iff_of_true rfl hinside
  · exact iff_of_false Bool.false_ne_true ‹_›

/-- The sample is that of a tile of the layout. -/
structure Suits (s : HeightSample) (l : Layout) : Prop where
  width_eq : s.width = l.width
  depth_eq : s.depth = l.depth
  isWhole : s.IsWhole

theorem suits_ofField {h : Int → Int → Float32} {seaLevel : Float32} {tile : Tile} {l : Layout} :
    (ofField h seaLevel (tile.volume l)).Suits l :=
  ⟨rfl, rfl, size_heights_ofField⟩

namespace Suits

variable {l : Layout}

theorem columns_eq (h : s.Suits l) : l.columns = s.width.toNat * s.depth.toNat := by
  rw [h.width_eq, h.depth_eq, Layout.columns]

theorem fits_fill (h : s.Suits l) {surface : Pixmap}
    (hsurface : Pixmap.blank? l.width.toNat l.depth.toNat = some surface) (background : Color) :
    s.Fits (surface.fill background) := by
  obtain ⟨-, hwidth, hheight⟩ := Pixmap.size_of_blank? hsurface
  exact ⟨by rw [h.width_eq]; exact hwidth, by rw [h.depth_eq]; exact hheight⟩

end Suits

end HeightSample

/-! ### Elevation -/

namespace Elevation

variable {s : HeightSample} {canvas : Pixmap}

theorem fits_shade (h : s.Fits canvas) : s.Fits (shade s canvas) := ⟨h.width_eq, h.height_eq⟩

theorem cell?_shade (h : s.Fits canvas) (x z : Nat) :
    (shade s canvas).cell? x z = (canvas.cell? x z).map fun p =>
      (s.at? x z).elim p fun height => (color height s.seaLevel).premultiply := by
  by_cases hinside : x < canvas.width ∧ z < canvas.height
  · have hcolumn : x < s.width.toNat ∧ z < s.depth.toNat := by
      rwa [h.width_eq, h.height_eq] at hinside
    rw [shade, Raster.cell?_paint, if_pos (by omega), HeightSample.at?_of_inside hcolumn.1 hcolumn.2,
      h.width_eq]
    cases s.heights[z * s.width.toNat + x]? <;> rfl
  · rw [Raster.cell?_eq_none hinside, Raster.cell?_eq_none (r := shade s canvas) hinside,
      Option.map_none]

/-- A whole sample leaves nothing to see of what was on the canvas. -/
theorem cell?_shade_of_whole (h : s.Fits canvas) (hwhole : s.IsWhole) (x z : Nat) :
    (shade s canvas).cell? x z =
      (s.at? x z).map fun height => (color height s.seaLevel).premultiply := by
  rw [cell?_shade h]
  have hcell := Raster.cell?_isSome_iff (r := canvas) (x := x) (y := z)
  rw [h.width_eq, h.height_eq, ← HeightSample.at?_isSome_iff hwhole] at hcell
  cases hat : s.at? x z with
  | none =>
    rw [hat] at hcell
    rw [Option.not_isSome_iff_eq_none.1 (mt hcell.1 Bool.false_ne_true)]
    rfl
  | some height =>
    obtain ⟨p, hp⟩ := Option.isSome_iff_exists.1 (hcell.2 (by rw [hat]; rfl))
    rw [hp]
    rfl

end Elevation

/-! ### Contour lines -/

namespace Contours

variable {c : Contours} {s : HeightSample} {canvas : Pixmap}

/-- Whether the band of a column differs from that of the column to the right of it or below it, of
those that the sample has. -/
def crosses (c : Contours) (s : HeightSample) (x z : Nat) : Bool :=
  (s.at? x z).any fun h =>
    c.differs (c.band h) (s.at? (x + 1) z) || c.differs (c.band h) (s.at? x (z + 1))

/-- A number below a word is the word before that or an earlier one, so that one more is a word. -/
private theorem succ_ofNat {i size : UInt32} (h : i < size) :
    IntRange.unsigned32.add i.toNat 1 = .ok (i.toNat + 1) ∧
      (UInt32.ofNat ((i.toNat : Int) + 1).toNat).toNat = i.toNat + 1 := by
  have hsize := size.toNat_lt
  have hlt := UInt32.lt_iff_toNat_lt.1 h
  have hmem : (i.toNat : Int) + 1 ∈ IntRange.unsigned32 := by
    rw [IntRange.mem_unsigned32]
    omega
  have hexact := IntRange.toNat_ofNat_toNat hmem
  exact ⟨IntRange.add_of_mem hmem, by omega⟩

/-- What is computed for a column that has a height. -/
theorem isEdge_of_height {x z : UInt32} {height : Float32} (hx : x < s.width) (hz : z < s.depth)
    (hheight : s.height x z = .ok (some height)) :
    c.isEdge s x z = (do
      let east ← s.height (UInt32.ofNat ((x.toNat : Int) + 1).toNat) z
      let south ← s.height x (UInt32.ofNat ((z.toNat : Int) + 1).toNat)
      return c.differs (c.band height) east || c.differs (c.band height) south) := by
  unfold isEdge
  rw [hheight, (succ_ofNat hx).1, (succ_ofNat hz).1]
  rfl

theorem isEdge_eq (hcolumns : s.width.toNat * s.depth.toNat ≤ 4294967296) {x z : UInt32}
    (hx : x < s.width) (hz : z < s.depth) :
    c.isEdge s x z = .ok (c.crosses s x.toNat z.toNat) := by
  have hheight := s.height_eq_at? hcolumns
  unfold crosses
  cases hat : s.at? x.toNat z.toNat with
  | none =>
    unfold isEdge
    rw [hheight, hat]
    rfl
  | some height =>
    rw [isEdge_of_height hx hz ((hheight x z).trans (congrArg _ hat)), hheight, hheight,
      (succ_ofNat hx).2, (succ_ofNat hz).2]
    rfl

/-- The pixel in a place is found on a contour line or not, as its column is. -/
theorem isEdge_place (hcolumns : s.width.toNat * s.depth.toNat ≤ 4294967296) {k : Nat}
    (hk : k < s.width.toNat * s.depth.toNat) :
    c.isEdge s (UInt32.ofNat k % s.width) (UInt32.ofNat k / s.width)
      = .ok (c.crosses s (k % s.width.toNat) (k / s.width.toNat)) := by
  have hword : (UInt32.ofNat k).toNat = k := UInt32.toNat_ofNat_of_lt' (by
    change k < 4294967296
    omega)
  have hpos : 0 < s.width.toNat := Nat.pos_of_ne_zero fun hzero => by simp [hzero] at hk
  rw [isEdge_eq hcolumns, UInt32.toNat_mod, UInt32.toNat_div, hword]
  · rw [UInt32.lt_iff_toNat_lt, UInt32.toNat_mod]
    exact Nat.mod_lt _ hpos
  · rw [UInt32.lt_iff_toNat_lt, UInt32.toNat_div, hword]
    exact Nat.div_lt_of_lt_mul hk

/-- Every pixel is found on a contour line or not, in its place. -/
theorem exists_edges (hcolumns : s.width.toNat * s.depth.toNat ≤ 4294967296) :
    ∃ edges, c.edges s (s.width.toNat * s.depth.toNat) = .ok edges ∧
      ∀ x z, x < s.width.toNat → z < s.depth.toNat →
        edges[z * s.width.toNat + x]? = some (c.crosses s x z) := by
  refine ⟨((List.range (s.width.toNat * s.depth.toNat)).map fun k =>
    c.crosses s (k % s.width.toNat) (k / s.width.toNat)).toArray, ?_, fun x z hx hz => ?_⟩
  · rw [edges, ← List.toArray_range, List.mapM_toArray,
      mapM_eq_ok fun k hk => isEdge_place hcolumns (List.mem_range.1 hk)]
    rfl
  · obtain ⟨hcolumn, hrow⟩ := place_mod_div hx z
    rw [List.getElem?_toArray, List.getElem?_map, List.getElem?_range (place_lt hx hz),
      Option.map_some, hcolumn, hrow]

/-- The column in the last place that is a word has a neighbour whose place is none: the next one in
its row, or else the one below it. -/
private theorem isEdge_ne_ok (hwhole : s.IsWhole)
    (hcolumns : 4294967296 < s.width.toNat * s.depth.toNat) {x z : UInt32} (hx : x < s.width)
    (hz : z < s.depth) (hlast : z.toNat * s.width.toNat + x.toNat = 4294967295) (b : Bool) :
    c.isEdge s x z ≠ .ok b := by
  have hplace : 4294967295 < s.heights.size := by
    rw [hwhole]
    omega
  have hheight : s.height x z = .ok (some s.heights[4294967295]) := by
    rw [HeightSample.height_of_place_mem hx hz (by omega), hlast, Array.getElem?_eq_getElem hplace]
  rw [isEdge_of_height hx hz hheight]
  have heast := (succ_ofNat hx).2
  have hsouth := (succ_ofNat hz).2
  by_cases hnext : x.toNat + 1 < s.width.toNat
  · obtain ⟨fault, hfault⟩ := HeightSample.height_of_place_not_mem
      (i := UInt32.ofNat ((x.toNat : Int) + 1).toNat) (UInt32.lt_iff_toNat_lt.2 (by omega)) hz
      (by rw [heast]; omega)
    rw [hfault]
    exact nofun
  · have hend : s.width.toNat = x.toNat + 1 := by
      have hlt := UInt32.lt_iff_toNat_lt.1 hx
      omega
    have hrows : (z.toNat + 1) * s.width.toNat = 4294967296 := by
      rw [Nat.add_mul]
      omega
    have hbelow : z.toNat + 1 < s.depth.toNat := by
      rw [← hrows, Nat.mul_comm] at hcolumns
      exact Nat.lt_of_mul_lt_mul_left hcolumns
    obtain ⟨fault, hfault⟩ := HeightSample.height_of_place_not_mem
      (j := UInt32.ofNat ((z.toNat : Int) + 1).toNat) hx (UInt32.lt_iff_toNat_lt.2 (by omega))
      (by rw [hsouth]; omega)
    rw [HeightSample.height_of_outside (.inl (UInt32.le_iff_toNat_le.2 (by omega))), hfault]
    exact nofun

/-- A sample with more columns than there are words is not gone over to the end. -/
theorem edges_ne_ok (hwhole : s.IsWhole) (hcolumns : 4294967296 < s.width.toNat * s.depth.toNat)
    (edges : Array Bool) : c.edges s (s.width.toNat * s.depth.toNat) ≠ .ok edges := by
  intro h
  have hlist : (List.range (s.width.toNat * s.depth.toNat)).mapM
      (fun k => c.isEdge s (UInt32.ofNat k % s.width) (UInt32.ofNat k / s.width))
        = .ok edges.toList := by
    rw [← Array.toList_range, ← Array.toList_mapM]
    exact congrArg (Array.toList <$> ·) h
  obtain ⟨b, hb⟩ := exists_of_mapM_eq_ok hlist 4294967295
    (List.mem_range.2 (Nat.lt_trans (by decide) hcolumns))
  have hword : (UInt32.ofNat 4294967295).toNat = 4294967295 := rfl
  have hpos : 0 < s.width.toNat := Nat.pos_of_ne_zero fun hzero => by simp [hzero] at hcolumns
  refine isEdge_ne_ok hwhole hcolumns ?_ ?_ ?_ b hb
  · rw [UInt32.lt_iff_toNat_lt, UInt32.toNat_mod]
    exact Nat.mod_lt _ hpos
  · rw [UInt32.lt_iff_toNat_lt, UInt32.toNat_div, hword]
    exact Nat.div_lt_of_lt_mul (Nat.lt_trans (by decide) hcolumns)
  · rw [UInt32.toNat_mod, UInt32.toNat_div, hword]
    exact Nat.div_add_mod' 4294967295 s.width.toNat

theorem cell?_drawEdges (edges : Array Bool) (x z : Nat) :
    (drawEdges edges canvas).cell? x z = (canvas.cell? x z).map fun p =>
      if edges[z * canvas.width + x]?.getD false then darken p else p := by
  by_cases hinside : x < canvas.width ∧ z < canvas.height
  · rw [drawEdges, Raster.cell?_paint, if_pos (by omega)]
  · rw [Raster.cell?_eq_none hinside, Raster.cell?_eq_none (r := drawEdges edges canvas) hinside,
      Option.map_none]

/-- The canvas with the pixels on contour lines darkened, and no others changed. -/
structure Drawn (c : Contours) (s : HeightSample) (canvas drawn : Pixmap) : Prop where
  width_eq : drawn.width = canvas.width
  height_eq : drawn.height = canvas.height
  cell?_eq : ∀ x z, drawn.cell? x z =
    (canvas.cell? x z).map fun p => if c.crosses s x z then darken p else p

theorem exists_draw (hfits : s.Fits canvas)
    (hcolumns : s.width.toNat * s.depth.toNat ≤ 4294967296) (visible : Bool) :
    ∃ drawn, (c.layer visible).draw s canvas = .ok drawn ∧ c.Drawn s canvas drawn := by
  obtain ⟨edges, hedges, hedge⟩ := exists_edges (c := c) hcolumns
  refine ⟨drawEdges edges canvas, ?_, rfl, rfl, fun x z => ?_⟩
  · simp only [layer, HeightSample.checkSize_of_fits hfits, hfits.width_eq, hfits.height_eq, hedges]
    rfl
  · rw [cell?_drawEdges]
    by_cases hinside : x < canvas.width ∧ z < canvas.height
    · rw [hfits.width_eq, hfits.height_eq] at hinside
      rw [hfits.width_eq, hedge x z hinside.1 hinside.2, Option.getD_some]
    · rw [Raster.cell?_eq_none hinside, Option.map_none, Option.map_none]

theorem draw_ne_ok (hfits : s.Fits canvas) (hwhole : s.IsWhole)
    (hcolumns : 4294967296 < s.width.toNat * s.depth.toNat) (visible : Bool) (drawn : Pixmap) :
    (c.layer visible).draw s canvas ≠ .ok drawn := by
  simp only [layer, HeightSample.checkSize_of_fits hfits, hfits.width_eq, hfits.height_eq]
  cases hedges : c.edges s (s.width.toNat * s.depth.toNat) with
  | ok edges => exact absurd hedges (edges_ne_ok hwhole hcolumns edges)
  | error fault => exact nofun

/-! ### Both layers -/

/-- A rasterizer with the layers of a terrain. -/
def rasterizer (c : Contours) (visible : Bool) (l : Layout) (background : Color) :
    Rasterizer HeightSample :=
  ⟨[elevationLayer, c.layer visible], l, background⟩

/-- The color of a column of a sample. -/
def pixel (c : Contours) (visible : Bool) (s : HeightSample) (x z : Nat) (height : Float32) : Pixel :=
  let p := (Elevation.color height s.seaLevel).premultiply
  if visible && c.crosses s x z then darken p else p

/-- The image shows the columns of a sample, and nothing else. -/
structure Shows (c : Contours) (visible : Bool) (s : HeightSample) (image : Pixmap) : Prop where
  width_eq : image.width = s.width.toNat
  height_eq : image.height = s.depth.toNat
  cell?_eq : ∀ x z, image.cell? x z = (s.at? x z).map (c.pixel visible s x z)

variable {visible : Bool} {l : Layout} {background : Color}

/-- The elevation layer comes first and is always drawn. -/
theorem rasterize_eq (s : HeightSample) {surface : Pixmap}
    (hsurface : Pixmap.blank? l.width.toNat l.depth.toNat = some surface)
    (hfits : s.Fits (surface.fill background)) :
    (c.rasterizer visible l background).rasterize s =
      if visible then (c.layer visible).apply s (Elevation.shade s (surface.fill background))
      else .ok (Elevation.shade s (surface.fill background)) := by
  have hfirst : elevationLayer.apply s (surface.fill background)
      = .ok (Elevation.shade s (surface.fill background)) := by
    simp only [Layer.apply, elevationLayer, HeightSample.checkSize_of_fits hfits]
    rfl
  simp only [rasterizer, Rasterizer.rasterize, hsurface, Rasterizer.drawLayers]
  cases visible with
  | false =>
    have honly : [elevationLayer, c.layer false].filter (·.visible) = [elevationLayer] := rfl
    rw [honly, List.foldlM_cons, hfirst]
    rfl
  | true =>
    have hboth : [elevationLayer, c.layer true].filter (·.visible)
        = [elevationLayer, c.layer true] := rfl
    rw [hboth, List.foldlM_cons, hfirst]
    exact bind_pure ((c.layer true).apply s _)

theorem exists_rasterize (hsuits : s.Suits l)
    (hsurface : (Pixmap.blank? l.width.toNat l.depth.toNat).isSome)
    (hends : visible = false ∨ l.columns ≤ 4294967296) :
    ∃ image, (c.rasterizer visible l background).rasterize s = .ok image ∧
      c.Shows visible s image := by
  obtain ⟨surface, hsurface⟩ := Option.isSome_iff_exists.1 hsurface
  have hfits := hsuits.fits_fill hsurface background
  have hshade := fun x z => Elevation.cell?_shade_of_whole hfits hsuits.isWhole x z
  rw [rasterize_eq s hsurface hfits]
  cases visible with
  | false =>
    refine ⟨_, rfl, hfits.width_eq, hfits.height_eq, fun x z => ?_⟩
    rw [hshade]
    rfl
  | true =>
    obtain ⟨drawn, hdrawn, hwidth, hheight, hcell⟩ := exists_draw (c := c)
      (Elevation.fits_shade hfits) (hsuits.columns_eq ▸ hends.resolve_left nofun) true
    refine ⟨drawn, ?_, hwidth.trans hfits.width_eq, hheight.trans hfits.height_eq, fun x z => ?_⟩
    · simp only [if_true, Layer.apply, hdrawn]
      rfl
    · rw [hcell, hshade, Option.map_map]
      rfl

/-- Every image that comes out shows its sample. -/
theorem shows_of_rasterize (hsuits : s.Suits l)
    (hsurface : (Pixmap.blank? l.width.toNat l.depth.toNat).isSome) {image : Pixmap}
    (himage : (c.rasterizer visible l background).rasterize s = .ok image) :
    c.Shows visible s image := by
  by_cases hends : visible = false ∨ l.columns ≤ 4294967296
  · obtain ⟨image', himage', hshows⟩ := exists_rasterize hsuits hsurface hends
    obtain rfl := Except.ok.inj (himage.symm.trans himage')
    exact hshows
  · -- The contour layer breaks off, so there is no image.
    obtain ⟨hvisible, hcolumns⟩ := not_or.1 hends
    obtain ⟨surface, hsurface⟩ := Option.isSome_iff_exists.1 hsurface
    have hfits := hsuits.fits_fill hsurface background
    rw [rasterize_eq s hsurface hfits, if_pos (Bool.not_eq_false _ ▸ hvisible)] at himage
    cases hdraw : (c.layer visible).draw s (Elevation.shade s (surface.fill background)) with
    | ok drawn =>
      exact absurd hdraw (draw_ne_ok (Elevation.fits_shade hfits) hsuits.isWhole
        (hsuits.columns_eq ▸ Nat.lt_of_not_le hcolumns) visible drawn)
    | error failure =>
      rw [Layer.apply, hdraw] at himage
      cases himage

end Contours

end WorldMap
