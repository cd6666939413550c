import WorldMap.Image.Draw
import WorldMap.Proofs.Image.Painting
/-!
# What drawing an image comes to

At one world point per pixel an image is blended over the canvas pixel by pixel, each of its pixels
over the one that it lies on, and nothing else of the canvas changes. That is what `Pixmap.Blended`
says. Drawing does so as long as the numbers on the way to the canvas are small enough for single
precision, which `Span.Lands` says of one side.

A pixel that is opaque takes the place of what it is blended over. The arithmetic of one channel is
checked for each of its 256 values.
-/

namespace WorldMap

/-! ### Rasters by their cells -/

namespace Raster

variable {α : Type} {r s : Raster α}

theorem exists_cell? {x y : Nat} (hx : x < r.width) (hy : y < r.height) :
    ∃ a, r.cell? x y = some a :=
  Option.isSome_iff_exists.1 (cell?_isSome_iff.2 ⟨hx, hy⟩)

theorem cell?_eq_none {x y : Nat} (h : ¬ (x < r.width ∧ y < r.height)) : r.cell? x y = none :=
  Option.not_isSome_iff_eq_none.1 (mt cell?_isSome_iff.1 h)

/-- Every place in the array of cells is that of a column and a row. -/
theorem getElem?_cells {i : Nat} (hi : i < r.width * r.height) :
    i % r.width < r.width ∧ i / r.width < r.height ∧
      r.cells[i]? = r.cell? (i % r.width) (i / r.width) := by
  have hwidth : 0 < r.width := Nat.pos_of_ne_zero fun hzero => by simp [hzero] at hi
  have hplace : i / r.width * r.width + i % r.width = i := by
    rw [Nat.mul_comm]
    exact Nat.div_add_mod i r.width
  refine ⟨Nat.mod_lt i hwidth, Nat.div_lt_of_lt_mul hi, ?_⟩
  rw [cell?, if_pos (Nat.mod_lt i hwidth), hplace]

/-- Rasters of one size are equal if their cells are. -/
theorem eq_of_cell? (hwidth : r.width = s.width) (hheight : r.height = s.height)
    (hcell : ∀ x y, x < r.width → y < r.height → r.cell? x y = s.cell? x y) : r = s := by
  have hcells : r.cells = s.cells := by
    apply Array.ext_getElem?
    intro i
    by_cases hi : i < r.width * r.height
    · obtain ⟨hcol, hrow, hr⟩ := getElem?_cells hi
      obtain ⟨-, -, hs⟩ := getElem?_cells (r := s) (hwidth ▸ hheight ▸ hi)
      rw [hr, hcell _ _ hcol hrow, hwidth, hs]
    · have hr : r.cells.size ≤ i := by
        rw [r.size_cells]
        omega
      have hs : s.cells.size ≤ i := by
        rw [s.size_cells, ← hwidth, ← hheight]
        omega
      rw [Array.getElem?_eq_none hr, Array.getElem?_eq_none hs]
  cases r
  cases s
  cases hwidth
  cases hheight
  cases hcells
  rfl

/-- The cell at a place that may lie off the raster on any side. -/
def at? (r : Raster α) (x y : Int) : Option α :=
  if 0 ≤ x ∧ 0 ≤ y then r.cell? x.toNat y.toNat else none

theorem at?_eq_none {x y : Int}
    (h : ¬ ((0 ≤ x ∧ x < r.width) ∧ (0 ≤ y ∧ y < r.height))) : r.at? x y = none := by
  unfold at?
  split
  · exact cell?_eq_none (by omega)
  · rfl

theorem at?_of_nonneg {x y : Int} (hx : 0 ≤ x) (hy : 0 ≤ y) :
    r.at? x y = r.cell? x.toNat y.toNat := if_pos ⟨hx, hy⟩

end Raster

/-! ### Opaque pixels -/

theorem unitParts_max : unitParts 255 = 1 := by decide +kernel

set_option maxRecDepth 100000 in
private theorem unitParts_mul_zero_fin :
    ∀ n : Fin 256, unitParts (UInt8.ofNat n) * (1 - 1) = 0 := by decide +kernel

set_option maxRecDepth 100000 in
private theorem roundToByte_fin :
    ∀ n : Fin 256,
      roundToByte (clampUnit (0 + unitParts (UInt8.ofNat n)) * 255) = UInt8.ofNat n := by
  decide +kernel

/-- A channel under full alpha is the one that is drawn. -/
theorem blendChannel_one (s d : UInt8) : blendChannel (unitParts s) 1 d = s := by
  have hd := unitParts_mul_zero_fin ⟨d.toNat, d.toNat_lt⟩
  have hs := roundToByte_fin ⟨s.toNat, s.toNat_lt⟩
  rw [UInt8.ofNat_toNat] at hd hs
  rw [blendChannel, hd, hs]

theorem Pixel.onto_of_opaque {p : Pixel} (h : p.a = 255) (d : Pixel) : p.onto d = p := by
  rcases p with ⟨r, g, b, a⟩
  simp only at h
  subst h
  simp only [Pixel.onto, Source4.ofPixel, Source4.onto, unitParts_max, blendChannel_one]
  have halpha := blendChannel_one 255 d.a
  rw [unitParts_max] at halpha
  rw [halpha]

/-! ### Sides of an image on a canvas -/

namespace Span

/-- A side of `length` pixels that begins at `origin` shows on a side of `side` pixels that begins
at `offset`, and nothing on the way there needs more than single precision. -/
structure Lands (origin : Int) (length : Nat) (offset : Int) (side : Nat) : Prop where
  length_pos : 0 < length
  length_le : length ≤ 8388607
  sides_le : length + side ≤ 16777216
  le_offset : -8388608 ≤ offset
  end_le : offset + side ≤ 8388608
  origin_lt : origin < offset + side
  offset_lt : offset < origin + length

namespace Lands

variable {origin offset : Int} {length side : Nat}

theorem moved_eq (h : Lands origin length offset side) :
    moved origin length offset = ⟨origin - offset, origin + length - offset⟩ := by
  obtain ⟨hpos, hlength, hsides, hoffset, hend, hbegins, hends⟩ := h
  exact Span.moved_eq (by omega) (by omega) (by omega) (by omega) (by omega) (by omega)

theorem fitsOn (h : Lands origin length offset side) :
    (moved origin length offset).FitsOn side := by
  rw [h.moved_eq]
  obtain ⟨hpos, hlength, hsides, hoffset, hend, hbegins, hends⟩ := h
  exact ⟨by omega, by simp only; omega, by simp only; omega, by simp only; omega⟩

theorem covers_iff (h : Lands origin length offset side) {p : Nat} :
    (moved origin length offset).Covers p ↔
      0 ≤ (p : Int) - (origin - offset) ∧ (p : Int) - (origin - offset) < length := by
  rw [h.moved_eq]
  simp only [Covers]
  omega

/-- The middle of a canvas pixel is in the image pixel that lies on it. -/
theorem shows (h : Lands origin length offset side) :
    (moved origin length offset).Shows (middlePixel length)
      fun p => ((p : Int) - (origin - offset)).toNat := by
  intro d p hd hp hcovers
  obtain ⟨hlow, hhigh⟩ := h.covers_iff.1 hcovers
  rw [h.moved_eq]
  obtain ⟨hpos, hlength, -, -, -, -, -⟩ := h
  simp only [patchSide] at hp
  have hmiddle : single (2 * ((p - d : Nat) : Int) + 1) = 2 * ((p - d : Nat) : Int) + 1 :=
    single_of_le (by omega)
  have hsource : 2 * ((p - d : Nat) : Int) + 1 - 2 * (origin - offset - d) =
      2 * ((p : Int) - (origin - offset)) + 1 := by omega
  have hexact : single (2 * ((p : Int) - (origin - offset)) + 1) =
      2 * ((p : Int) - (origin - offset)) + 1 := single_of_le (by omega)
  have hside : single (length : Int) = length := single_of_le (by omega)
  have hlast : lastBelow length = length - 1 := lastBelow_of_le (by
    show length ≤ 16777216
    omega)
  simp only [middlePixel]
  rw [hmiddle, hsource, hexact, hside, Int.toNat_natCast, hlast]
  omega

end Lands

end Span

/-! ### Images on a canvas -/

namespace Pixmap

theorem size_of_blank? {width height : Nat} {surface : Pixmap}
    (h : blank? width height = some surface) :
    width ≤ maxSurfaceWidth ∧ surface.width = width ∧ surface.height = height := by
  unfold blank? at h
  split at h
  · simp at h
  · cases h
    exact ⟨by omega, rfl, rfl⟩

/-- What becomes of a pixel under the one at `(x, y)` of an image, if the image has it. -/
def overlay (image : Pixmap) (x y : Int) (d : Pixel) : Pixel := (image.at? x y).elim d (·.onto d)

/-- A canvas with an image blended over it, whose first pixel is on pixel `(x, y)` of the canvas. -/
structure Blended (canvas image : Pixmap) (x y : Int) (drawn : Pixmap) : Prop where
  width_eq : drawn.width = canvas.width
  height_eq : drawn.height = canvas.height
  cell?_eq : ∀ px py, px < canvas.width → py < canvas.height →
    drawn.cell? px py = (canvas.cell? px py).map (image.overlay (px - x) (py - y))

variable {canvas image : Pixmap} {x y offsetX offsetY : Int}

private theorem coverCell_overlay (hx : Span.Lands x image.width offsetX canvas.width)
    (hy : Span.Lands y image.height offsetY canvas.height) (px py : Nat) (cell : Option Pixel) :
    coverCell (Span.moved x image.width offsetX) (Span.moved y image.height offsetY)
        (fun p => ((p : Int) - (x - offsetX)).toNat) (fun p => ((p : Int) - (y - offsetY)).toNat)
        (fun sx sy => (image.pixelOf sx sy).onto) px py cell =
      cell.map (image.overlay (px - (x - offsetX)) (py - (y - offsetY))) := by
  simp only [coverCell, hx.covers_iff, hy.covers_iff]
  split
  · rename_i hcovers
    obtain ⟨⟨hleft, hright⟩, htop, hbottom⟩ := hcovers
    obtain ⟨p, hp⟩ := Raster.exists_cell? (r := image) (x := ((px : Int) - (x - offsetX)).toNat)
      (y := ((py : Int) - (y - offsetY)).toNat) (by omega) (by omega)
    have hover : image.overlay (px - (x - offsetX)) (py - (y - offsetY)) = p.onto := by
      funext d
      rw [overlay, Raster.at?_of_nonneg hleft htop, hp]
      rfl
    rw [hover, pixelOf, hp]
    rfl
  · rename_i hcovers
    have hover : image.overlay (px - (x - offsetX)) (py - (y - offsetY)) = id := by
      funext d
      rw [overlay, Raster.at?_eq_none hcovers]
      rfl
    rw [hover, Option.map_id, id]

/-- Drawing keeps the size of a canvas, at any scale. -/
theorem size_drawImage (canvas image : Pixmap) (x y offsetX offsetY : Int) (scale : UInt32) :
    (canvas.drawImage image x y offsetX offsetY scale).width = canvas.width ∧
      (canvas.drawImage image x y offsetX offsetY scale).height = canvas.height := by
  simp only [drawImage]
  split
  · split
    · exact size_paintWhole ..
    · exact size_paintSpans ..
  · exact size_paintSpans ..

/-- Drawing blends an image over a canvas. On a canvas whose first pixel is the world origin it is
enough that this holds of an image that begins there too. -/
theorem blended_drawImage (hx : Span.Lands x image.width offsetX canvas.width)
    (hy : Span.Lands y image.height offsetY canvas.height)
    (hzero : offsetX = 0 ∧ offsetY = 0 → x = 0 ∧ y = 0) :
    Blended canvas image (x - offsetX) (y - offsetY)
      (canvas.drawImage image x y offsetX offsetY 1) := by
  unfold drawImage
  simp only [if_true]
  split
  · rename_i hoffset
    obtain ⟨rfl, rfl⟩ := hoffset
    obtain ⟨rfl, rfl⟩ := hzero ⟨rfl, rfl⟩
    have hsize := size_paintWhole canvas (Span.moved 0 image.width 0) (Span.moved 0 image.height 0)
      (middlePixel image.width) (middlePixel image.height) fun sx sy => (image.pixelOf sx sy).onto
    have hsmall : canvas.isLarge = false →
        (0 ≤ (Span.moved 0 image.width 0).start ∧
          (Span.moved 0 image.width 0).stop ≤ 8388607) ∧
        (0 ≤ (Span.moved 0 image.height 0).start ∧
          (Span.moved 0 image.height 0).stop ≤ 8388607) := by
      intro _
      have hlengthX := hx.length_le
      have hlengthY := hy.length_le
      rw [hx.moved_eq, hy.moved_eq]
      simp only
      omega
    refine ⟨hsize.1, hsize.2, fun px py hpx hpy => ?_⟩
    rw [cell?_paintWhole hx.fitsOn hy.fitsOn hx.shows hy.shows hsmall _ hpx hpy]
    exact coverCell_overlay hx hy px py _
  · have hsize := size_paintSpans canvas (Span.moved x image.width offsetX)
      (Span.moved y image.height offsetY) (middlePixel image.width) (middlePixel image.height)
      fun sx sy => (image.pixelOf sx sy).onto
    refine ⟨hsize.1, hsize.2, fun px py hpx hpy => ?_⟩
    rw [cell?_paintSpans hx.fitsOn hy.fitsOn hx.shows hy.shows _ hpx hpy]
    exact coverCell_overlay hx hy px py _

end Pixmap

end WorldMap
