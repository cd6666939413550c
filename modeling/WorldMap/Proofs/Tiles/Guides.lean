import WorldMap.Proofs.Image.Alpha
import WorldMap.Proofs.Tiles.Canvas
/-!
# Guide lines

The guide lines are the row and the column of the pixel on which the world origin falls, each as far
as that row or column is on the canvas. They are drawn last, so they do not depend on what lies under
them any more than a coat of paint does: `Guided` says what is left of each pixel, and
`Pixel.SourceOver` what a coat of paint is. Up to two to the power 24 pixels a side, single precision
keeps every coordinate on the way, and the lines are drawn exactly so. One pixel more, and the row ends
before its last pixel.
-/

namespace WorldMap

namespace Compositor

variable {c : Compositor} {v : Viewport} {canvas final : Pixmap} {x y : Int} {px py : Nat}

/-- The two guide lines over a pixel that is `x` columns and `z` rows from that of the world
origin. -/
def guide (c : Compositor) (x z : Int) (d : Pixel) : Pixel :=
  let row := if z = 0 then c.axisColor.paint.coat d else d
  if x = 0 then c.axisColor.paint.coat row else row

theorem guide_of_ne {x z : Int} (hx : x ≠ 0) (hz : z ≠ 0) (d : Pixel) : c.guide x z d = d := by
  simp only [guide, if_neg hx, if_neg hz]

theorem guide_row {x : Int} (hx : x ≠ 0) (d : Pixel) : c.guide x 0 d = c.axisColor.paint.coat d := by
  simp only [guide, if_neg hx, if_true]

theorem guide_column {z : Int} (hz : z ≠ 0) (d : Pixel) :
    c.guide 0 z d = c.axisColor.paint.coat d := by
  simp only [guide, if_neg hz, if_true]

theorem guide_crossing (d : Pixel) :
    c.guide 0 0 d = c.axisColor.paint.coat (c.axisColor.paint.coat d) := by
  simp only [guide, if_true]

/-- A coat that is opaque covers what it is put over. -/
theorem guide_of_opaque (halpha : c.axisColor.a = 255) {x z : Int} (hline : x = 0 ∨ z = 0)
    (d : Pixel) : c.guide x z d = ⟨c.axisColor.r, c.axisColor.g, c.axisColor.b, 255⟩ := by
  have hcoat (d : Pixel) :
      c.axisColor.paint.coat d = ⟨c.axisColor.r, c.axisColor.g, c.axisColor.b, 255⟩ := by
    simp only [Color.paint_of_opaque halpha, Pixel.coat, if_true]
  by_cases hx : x = 0
  · simp only [guide, if_pos hx, hcoat]
  · simp only [guide, if_neg hx, if_pos (hline.resolve_left hx), hcoat]

/-- A canvas under the guide lines through its pixel `(x, y)`, which may lie off it on any side. A
line that is off the canvas has no pixel, and is not to be seen anywhere else. -/
structure Guided (c : Compositor) (canvas : Pixmap) (x y : Int) (final : Pixmap) : Prop where
  width_eq : final.width = canvas.width
  height_eq : final.height = canvas.height
  off_lines : ∀ px py : Nat, (px : Int) ≠ x → (py : Int) ≠ y →
    final.cell? px py = canvas.cell? px py
  row : ∀ px py : Nat, (px : Int) ≠ x → (py : Int) = y →
    final.cell? px py = (canvas.cell? px py).map c.axisColor.paint.coat
  column : ∀ px py : Nat, (px : Int) = x → (py : Int) ≠ y →
    final.cell? px py = (canvas.cell? px py).map c.axisColor.paint.coat
  crossing : ∀ px py : Nat, (px : Int) = x → (py : Int) = y →
    final.cell? px py =
      (canvas.cell? px py).map fun d => c.axisColor.paint.coat (c.axisColor.paint.coat d)

namespace Guided

theorem of_cell?_eq (hwidth : final.width = canvas.width) (hheight : final.height = canvas.height)
    (hcell : ∀ px py : Nat,
      final.cell? px py = (canvas.cell? px py).map (c.guide (px - x) (py - y))) :
    c.Guided canvas x y final := by
  refine ⟨hwidth, hheight, fun px py hx hy => ?_, fun px py hx hy => ?_, fun px py hx hy => ?_,
    fun px py hx hy => ?_⟩
  · have hguide : c.guide (px - x) (py - y) = id := funext (guide_of_ne (by omega) (by omega))
    rw [hcell, hguide, Option.map_id, id]
  · rw [hcell, hy, Int.sub_self, funext (guide_row (c := c) (show (px : Int) - x ≠ 0 by omega))]
  · rw [hcell, hx, Int.sub_self, funext (guide_column (c := c) (show (py : Int) - y ≠ 0 by omega))]
  · rw [hcell, hx, hy, Int.sub_self, Int.sub_self, funext (guide_crossing (c := c))]

theorem cell?_eq (h : c.Guided canvas x y final) (px py : Nat) :
    final.cell? px py = (canvas.cell? px py).map (c.guide (px - x) (py - y)) := by
  by_cases hx : (px : Int) = x
  · by_cases hy : (py : Int) = y
    · rw [h.crossing px py hx hy, hx, hy, Int.sub_self, Int.sub_self,
        funext (guide_crossing (c := c))]
    · rw [h.column px py hx hy, hx, Int.sub_self,
        funext (guide_column (c := c) (show (py : Int) - y ≠ 0 by omega))]
  · by_cases hy : (py : Int) = y
    · rw [h.row px py hx hy, hy, Int.sub_self,
        funext (guide_row (c := c) (show (px : Int) - x ≠ 0 by omega))]
    · have hguide : c.guide (px - x) (py - y) = id := funext (guide_of_ne (by omega) (by omega))
      rw [h.off_lines px py hx hy, hguide, Option.map_id, id]

/-- What is opaque shows in the output as it is. -/
theorem cell?_toImage_of_opaque (h : c.Guided canvas x y final) (halpha : c.axisColor.a = 255)
    (hpx : px < canvas.width) (hpy : py < canvas.height) (hline : (px : Int) = x ∨ (py : Int) = y) :
    final.toImage.cell? px py = some c.axisColor := by
  obtain ⟨d, hd⟩ := Raster.exists_cell? hpx hpy
  rw [Pixmap.toImage, Raster.cell?_map, h.cell?_eq, hd, Option.map_some, Option.map_some,
    guide_of_opaque halpha (by omega), Pixel.straighten_of_opaque rfl, ← halpha]

end Guided

/-- A line is coated where it is on the canvas. -/
private theorem cell?_coatLine {shown on : Prop} [Decidable shown] [Decidable on] {w h : Nat}
    (hwidth : canvas.width ≤ 16777216) (hheight : canvas.height ≤ 16777216)
    (hfits : 0 < canvas.width → 0 < canvas.height → shown →
      (0 ≤ x ∧ 0 < w ∧ x + w ≤ canvas.width) ∧ (0 ≤ y ∧ 0 < h ∧ y + h ≤ canvas.height))
    (hon : px < canvas.width → py < canvas.height →
      (on ↔ shown ∧ (x ≤ px ∧ px < x + w) ∧ (y ≤ py ∧ py < y + h))) (color : Color) :
    (if shown then canvas.coatRect x y w h color else canvas).cell? px py =
      if on then (canvas.cell? px py).map color.paint.coat else canvas.cell? px py := by
  by_cases hin : px < canvas.width ∧ py < canvas.height
  · obtain ⟨hpx, hpy⟩ := hin
    by_cases hshown : shown
    · obtain ⟨⟨hx, hw, hright⟩, hy, hh, hbottom⟩ := hfits (by omega) (by omega) hshown
      rw [if_pos hshown,
        Pixmap.cell?_coatRect hx hw hright hy hh hbottom hwidth hheight color hpx hpy]
      simp only [hon hpx hpy, hshown, true_and]
    · rw [if_neg hshown, if_neg fun h => hshown ((hon hpx hpy).1 h).1]
  · -- Neither canvas has a pixel here.
    obtain ⟨hcoatW, hcoatH⟩ := Pixmap.size_coatRect canvas x y w h color
    have hnone : canvas.cell? px py = none := Raster.cell?_eq_none hin
    have hnone' : (canvas.coatRect x y w h color).cell? px py = none :=
      Raster.cell?_eq_none (by rwa [hcoatW, hcoatH])
    split <;> split <;> simp only [hnone, hnone', Option.map_none]

theorem cell?_coatRow (hwidth : canvas.width ≤ 16777216) (hheight : canvas.height ≤ 16777216) :
    (c.coatRow y canvas).cell? px py =
      if (py : Int) - y = 0 then (canvas.cell? px py).map c.axisColor.paint.coat
      else canvas.cell? px py :=
  cell?_coatLine hwidth hheight (by omega) (by omega) c.axisColor

theorem cell?_coatColumn (hwidth : canvas.width ≤ 16777216) (hheight : canvas.height ≤ 16777216) :
    (c.coatColumn x canvas).cell? px py =
      if (px : Int) - x = 0 then (canvas.cell? px py).map c.axisColor.paint.coat
      else canvas.cell? px py :=
  cell?_coatLine hwidth hheight (by omega) (by omega) c.axisColor

/-- Guide lines go through the pixel of the world origin. -/
theorem exists_guided (horigin : v.toOutput 0 0 = .ok (x, y)) (hwidth : canvas.width ≤ 16777216)
    (hheight : canvas.height ≤ 16777216) :
    ∃ final, c.drawAxes v canvas = .ok final ∧ c.Guided canvas x y final := by
  obtain ⟨hrowW, hrowH⟩ := size_coatRow (c := c) y canvas
  obtain ⟨hfinalW, hfinalH⟩ := size_coatColumn (c := c) x (c.coatRow y canvas)
  refine ⟨_, drawAxes_of_origin horigin,
    .of_cell?_eq (hfinalW.trans hrowW) (hfinalH.trans hrowH) fun px py => ?_⟩
  rw [cell?_coatColumn (hrowW ▸ hwidth) (hrowH ▸ hheight), cell?_coatRow hwidth hheight]
  cases canvas.cell? px py with
  | none => simp only [Option.map_none, ite_self]
  | some d =>
    simp only [guide, Option.map_some]
    split <;> split <;> rfl

/-- The guide lines touch two lines of a canvas, whatever the background and the tiles have left on
it, and are drawn last. Beside the lines the output is what it is without them, the pixels of the
lines are coated once and their crossing twice, and a line that is off the canvas is not drawn. A coat
is the color, multiplied by its alpha, over what it is put on. In the output a line of an opaque color
is of that color all along. -/
theorem guides_overlay_two_lines (c : Compositor) (v : Viewport) (hscale : v.scale ≠ 0) :
    (c.axisColor.IsPremultiplied c.axisColor.paint ∧
      ∀ d, c.axisColor.paint.SourceOver d (c.axisColor.paint.coat d)) ∧
    ∃ x y : Int, v.toOutput 0 0 = .ok (x, y) ∧
      (∀ canvas : Pixmap, canvas.width ≤ 16777216 → canvas.height ≤ 16777216 →
        ∃ final, c.drawAxes v canvas = .ok final ∧ c.Guided canvas x y final) ∧
      ∀ (target : Image) (tiles : List (TileResult Pixmap)),
        0 < target.width → target.width ≤ 16777216 → 0 < target.height → target.height ≤ 16777216 →
        ∃ surface, Pixmap.blank? target.width target.height = some surface ∧
          (∀ fault, c.lay v surface tiles = .error fault →
            c.composite target v tiles = .error fault) ∧
          ∀ canvas, c.lay v surface tiles = .ok canvas →
            canvas.width = target.width ∧ canvas.height = target.height ∧
            ∃ final, c.Guided canvas x y final ∧ c.composite target v tiles = .ok final.toImage ∧
              (∀ px py : Nat, (px : Int) ≠ x → (py : Int) ≠ y →
                final.toImage.cell? px py = canvas.toImage.cell? px py) ∧
              (c.axisColor.a = 255 → ∀ px py : Nat, px < target.width → py < target.height →
                (px : Int) = x ∨ (py : Int) = y →
                final.toImage.cell? px py = some c.axisColor) := by
  refine ⟨⟨c.axisColor.isPremultiplied_paint, (Pixel.isValid_paint c.axisColor).sourceOver_coat⟩,
    _, _, Viewport.toOutput_origin hscale,
    fun canvas => exists_guided (Viewport.toOutput_origin hscale), ?_⟩
  intro target tiles hposX hwidth hposY hheight
  have hwide : target.width ≤ maxSurfaceWidth := by
    rw [maxSurfaceWidth]
    omega
  obtain ⟨surface, hsurface⟩ := Pixmap.exists_blank? hposX hwide hposY
  obtain ⟨-, hsurfaceW, hsurfaceH⟩ := Pixmap.size_of_blank? hsurface
  refine ⟨surface, hsurface, fun fault => composite_of_lay_error hsurface, fun canvas hlay => ?_⟩
  have hcanvasW := (size_of_lay hlay).1.trans hsurfaceW
  have hcanvasH := (size_of_lay hlay).2.trans hsurfaceH
  obtain ⟨final, hfinal, hguided⟩ := exists_guided (c := c) (Viewport.toOutput_origin hscale)
    (hcanvasW ▸ hwidth) (hcanvasH ▸ hheight)
  refine ⟨hcanvasW, hcanvasH, final, hguided, ?_, fun px py hx hy => ?_,
    fun halpha px py hpx hpy hline => ?_⟩
  · rw [composite_of_lay hsurface hlay, hfinal]
    rfl
  · rw [Pixmap.toImage, Raster.cell?_map, hguided.off_lines px py hx hy, Pixmap.toImage,
      Raster.cell?_map]
  · exact hguided.cell?_toImage_of_opaque halpha (hcanvasW ▸ hpx) (hcanvasH ▸ hpy) hline

section Lattice

/-- The world origin is on the third column, and above the first row. -/
private def asideView : Viewport := ⟨9, 9, 3, -7, 40⟩

private def asideCompositor : Compositor := ⟨.ofFootprint 2 2, .black, axisGray⟩

private def asideTarget : Image := Raster.replicate 5 4 .black

/-- The world origin is on the pixel in the middle. -/
private def middleView : Viewport := ⟨3, 3, 1, -1, -1⟩

/-- About half of what is below shows through. -/
private def glassCompositor : Compositor := ⟨.ofFootprint 2 2, .black, ⟨200, 100, 50, 128⟩⟩

private def middleTarget : Image := Raster.replicate 3 3 .black

/-- One line shows and the other does not, on a target that is not of the size of the view. Lines of
glass are brighter where they cross. -/
theorem guides_overlay_two_lines_asideView :
    (asideView.scale ≠ 0 ∧ asideView.toOutput 0 0 = .ok (2, -14) ∧
      ∃ out, asideCompositor.composite asideTarget asideView [] = .ok out ∧
        (∀ py, py < 4 → out.cell? 2 py = some axisGray) ∧
        ∀ px, px < 5 → px ≠ 2 → out.cell? px 0 = some .black) ∧
    middleView.scale ≠ 0 ∧ middleView.toOutput 0 0 = .ok (1, 1) ∧
      glassCompositor.axisColor.IsPremultiplied ⟨100, 50, 25, 128⟩ ∧
      Pixel.SourceOver ⟨100, 50, 25, 128⟩ ⟨0, 0, 0, 255⟩ ⟨100, 50, 25, 255⟩ ∧
      Pixel.SourceOver ⟨100, 50, 25, 128⟩ ⟨100, 50, 25, 255⟩ ⟨150, 75, 38, 255⟩ ∧
      ∃ out, glassCompositor.composite middleTarget middleView [] = .ok out ∧
        (∀ p, p < 3 → p ≠ 1 → out.cell? p 1 = some ⟨100, 50, 25, 255⟩ ∧
          out.cell? 1 p = some ⟨100, 50, 25, 255⟩) ∧
        out.cell? 1 1 = some ⟨150, 75, 38, 255⟩ ∧
        ∀ px py, px < 3 → py < 3 → px ≠ 1 → py ≠ 1 → out.cell? px py = some .black := by
  have hblack : Color.black.paint.straighten = .black := by decide +kernel
  constructor
  · have hscale : asideView.scale ≠ 0 := by decide
    have horigin : asideView.toOutput 0 0 = .ok (2, -14) := rfl
    obtain ⟨-, x, y, hxy, -, hcompose⟩ := guides_overlay_two_lines asideCompositor asideView hscale
    obtain ⟨rfl, rfl⟩ : 2 = x ∧ -14 = y := Prod.mk.inj (Except.ok.inj (horigin.symm.trans hxy))
    obtain ⟨surface, hsurface, -, hdrawn⟩ :=
      hcompose asideTarget [] (by decide) (by decide) (by decide) (by decide)
    obtain ⟨-, hsurfaceW, hsurfaceH⟩ := Pixmap.size_of_blank? hsurface
    obtain ⟨-, -, final, -, hout, hbeside, hline⟩ :=
      hdrawn (surface.fill asideCompositor.background) rfl
    refine ⟨hscale, horigin, final.toImage, hout, fun py hpy => ?_, fun px hpx hne => ?_⟩
    · exact hline rfl 2 py (by decide) hpy (.inl rfl)
    · rw [hbeside px 0 (by omega) (by decide), Pixmap.toImage, Raster.cell?_map, Pixmap.fill,
        Raster.cell?_replicate, hsurfaceW, hsurfaceH, if_pos ⟨hpx, by decide⟩]
      exact congrArg some hblack
  · have hscale : middleView.scale ≠ 0 := by decide
    have horigin : middleView.toOutput 0 0 = .ok (1, 1) := rfl
    obtain ⟨⟨hcolor, hcoat⟩, x, y, hxy, -, hcompose⟩ :=
      guides_overlay_two_lines glassCompositor middleView hscale
    obtain ⟨rfl, rfl⟩ : 1 = x ∧ 1 = y := Prod.mk.inj (Except.ok.inj (horigin.symm.trans hxy))
    obtain ⟨surface, hsurface, -, hdrawn⟩ :=
      hcompose middleTarget [] (by decide) (by decide) (by decide) (by decide)
    obtain ⟨-, hsurfaceW, hsurfaceH⟩ := Pixmap.size_of_blank? hsurface
    obtain ⟨-, -, final, hguided, hout, -⟩ :=
      hdrawn (surface.fill glassCompositor.background) rfl
    have hground {px py : Nat} (hpx : px < 3) (hpy : py < 3) :
        (surface.fill glassCompositor.background).cell? px py = some ⟨0, 0, 0, 255⟩ := by
      rw [Pixmap.fill, Raster.cell?_replicate, hsurfaceW, hsurfaceH, if_pos ⟨hpx, hpy⟩]
      rfl
    have hshows {px py : Nat} {p : Pixel} (hp : final.cell? px py = some p) :
        final.toImage.cell? px py = some p.straighten := by
      rw [Pixmap.toImage, Raster.cell?_map, hp, Option.map_some]
    refine ⟨hscale, horigin, hcolor, hcoat ⟨0, 0, 0, 255⟩, hcoat ⟨100, 50, 25, 255⟩, final.toImage,
      hout, fun p hp hne => ⟨?_, ?_⟩, ?_, fun px py hpx hpy hne hne' => ?_⟩
    · exact hshows (by rw [hguided.row p 1 (by omega) rfl, hground hp (by decide)]; rfl)
    · exact hshows (by rw [hguided.column 1 p rfl (by omega), hground (by decide) hp]; rfl)
    · exact hshows (by rw [hguided.crossing 1 1 rfl rfl, hground (by decide) (by decide)]; rfl)
    · rw [hshows (by rw [hguided.off_lines px py (by omega) (by omega), hground hpx hpy])]
      exact congrArg some hblack

end Lattice

/-! ### One pixel beyond -/

/-- A line whose columns end before a pixel leaves that pixel alone. -/
private theorem cell?_coatRect_of_stop_le {w h : Nat} {cols rows : Span Int}
    (hmovedX : Span.moved x w 0 = cols) (hmovedY : Span.moved y h 0 = rows)
    (hcols : cols.LiesOn canvas.width) (hrows : rows.LiesOn canvas.height) (hstop : cols.stop ≤ px)
    (hpx : px < canvas.width) (hpy : py < canvas.height) (color : Color) :
    (canvas.coatRect x y w h color).cell? px py = canvas.cell? px py := by
  rw [Pixmap.cell?_coatRect_of_liesOn hmovedX hmovedY hcols hrows color hpx hpy, if_neg]
  rintro ⟨⟨-, hcovers⟩, -⟩
  omega

/-- Single precision has no number for the length of this row, and it ends before the last pixel. -/
theorem cell?_coatRow_of_width (hwidth : canvas.width = 16777217)
    (hheight : canvas.height ≤ 16777216) (hpy : py < canvas.height) :
    (c.coatRow y canvas).cell? 16777216 py = canvas.cell? 16777216 py := by
  have hshort : Span.moved 0 (16777217 : Nat) 0 = ⟨0, 16777216⟩ := rfl
  have hlies : (⟨0, 16777216⟩ : Span Int).LiesOn canvas.width :=
    ⟨by omega, by decide, by decide, by simp only; omega, by decide⟩
  unfold coatRow
  split
  · exact cell?_coatRect_of_stop_le (hwidth ▸ hshort) (Span.moved_zero (by omega) (by omega)) hlies
      (.of_le (by omega) (by omega) (by omega) hheight) (by decide) (by omega) hpy c.axisColor
  · rfl

theorem cell?_coatColumn_of_width (hwidth : canvas.width = 16777217)
    (hheight : canvas.height ≤ 16777216) (hx : x ≠ 16777216) (hpy : py < canvas.height) :
    (c.coatColumn x canvas).cell? 16777216 py = canvas.cell? 16777216 py := by
  unfold coatColumn
  split
  · rename_i hon
    have hlies : (⟨x, x + (1 : Nat)⟩ : Span Int).LiesOn canvas.width :=
      ⟨by omega, hon.1, by simp only; omega, by simp only; omega, by simp only; omega⟩
    exact cell?_coatRect_of_stop_le (Span.moved_zero (by omega) (by omega))
      (Span.moved_zero (by omega) (by omega)) hlies
      (.of_le (by omega) (by omega) (by omega) hheight) (by simp only; omega) (by omega) hpy
      c.axisColor
  · rfl

theorem cell?_drawAxes_of_width (horigin : v.toOutput 0 0 = .ok (x, y))
    (hwidth : canvas.width = 16777217) (hheight : canvas.height ≤ 16777216) (hx : x ≠ 16777216)
    (hpy : py < canvas.height) (hfinal : c.drawAxes v canvas = .ok final) :
    final.cell? 16777216 py = canvas.cell? 16777216 py := by
  obtain ⟨hrowW, hrowH⟩ := size_coatRow (c := c) y canvas
  obtain rfl : c.coatColumn x (c.coatRow y canvas) = final :=
    Except.ok.inj ((drawAxes_of_origin horigin).symm.trans hfinal)
  rw [cell?_coatColumn_of_width (hrowW.trans hwidth) (hrowH ▸ hheight) hx (hrowH ▸ hpy),
    cell?_coatRow_of_width hwidth hheight hpy]

/-- A column whose two sides are one number in single precision is not there at all. -/
theorem coatColumn_lost (hwidth : 16777216 < canvas.width) :
    c.coatColumn 16777216 canvas = canvas := by
  have hlarge : canvas.isLarge = true := Pixmap.isLarge_of_lt (Nat.lt_trans (by decide) hwidth)
  have hthin : (Span.moved 16777216 (1 : Nat) 0).isThin = true := rfl
  unfold coatColumn
  split
  · simp only [Pixmap.coatRect, Pixmap.paintWhole, Pixmap.paintSpans, hlarge, hthin, Bool.true_or,
      if_true]
  · rfl

end Compositor

end WorldMap
