import Mathlib.Logic.Basic
import WorldMap.Image.Patch
/-!
# What painting comes to

On a side of so many pixels, an integer span fits if the coordinates of its ends, as seen from any
pixel of the side, are integers that single precision keeps. Then nothing is lost when a canvas is
painted patch by patch, or in whole pixels: the pixels between the two ends are painted, each of
them once and with what it shows, and no others.
-/

namespace WorldMap

theorem single_of_le {n : Int} (h : n.natAbs ≤ 16777216) : single n = n := by
  rcases Nat.lt_or_eq_of_le h with hlt | heq
  · exact single_of_lt hlt
  · rcases Int.natAbs_eq n with hpos | hneg
    · rw [hpos, heq]
      decide
    · rw [hneg, heq]
      decide

/-! ### Painting where two placements meet -/

namespace Pixmap

variable {τ : Type} [Inhabited τ]

theorem cell?_paintPlaced (canvas : Pixmap) (x y : Nat) (cols rows : Placement τ)
    (f : τ → τ → Pixel → Pixel) (px py : Nat) :
    (canvas.paintPlaced x y cols rows f).cell? px py =
      if (x + cols.first ≤ px ∧ px < x + cols.first + cols.count) ∧
          (y + rows.first ≤ py ∧ py < y + rows.first + rows.count) then
        (canvas.cell? px py).map (f (cols.source (px - x)) (rows.source (py - y)))
      else canvas.cell? px py := by
  rw [paintPlaced, Raster.cell?_paint]
  split
  · rename_i hinside
    obtain ⟨⟨hleft, hright⟩, htop, hbottom⟩ := hinside
    have hcol : cols.first + (px - (x + cols.first)) = px - x := by omega
    have hrow : rows.first + (py - (y + rows.first)) = py - y := by omega
    have hpx : px - (x + cols.first) < cols.count := by omega
    have hpy : py - (y + rows.first) < rows.count := by omega
    simp [Array.getD, hpx, hpy, hcol, hrow]
  · rfl

end Pixmap

/-! ### Spans that fit -/

namespace Span

/-- The pixel is between the ends. -/
def Covers (s : Span Int) (p : Nat) : Prop := s.start ≤ p ∧ p < s.stop

structure FitsOn (s : Span Int) (side : Nat) : Prop where
  side_le : side ≤ 16777217
  le_start : (side : Int) - 16777217 ≤ s.start
  start_lt : s.start < s.stop
  stop_le : s.stop ≤ 16777216

variable {s : Span Int} {side : Nat} {τ : Type}

/-- The span as it is seen from pixel `d`. -/
def seenFrom (s : Span Int) (d : Nat) : Span Int := ⟨s.start - d, s.stop - d⟩

namespace FitsOn

theorem shift_neg (h : s.FitsOn side) {d : Nat} (hd : d < side) : s.shift (-d) = s.seenFrom d := by
  obtain ⟨hside, hstart, hlt, hstop⟩ := h
  have hstart' : single (s.start + -d) = s.start - d := single_of_le (by omega)
  have hstop' : single (s.stop + -d) = s.stop - d := single_of_le (by omega)
  simp only [shift, Coordinate.shift, hstart', hstop', Span.seenFrom]

theorem shift_seenFrom (h : s.FitsOn side) {d : Nat} (hd : d < side) :
    (s.seenFrom d).shift d = s := by
  obtain ⟨hside, hstart, hlt, hstop⟩ := h
  have hstart' : single (s.start - d + d) = s.start := by
    rw [Int.sub_add_cancel]
    exact single_of_le (by omega)
  have hstop' : single (s.stop - d + d) = s.stop := by
    rw [Int.sub_add_cancel]
    exact single_of_le (by omega)
  simp only [shift, Coordinate.shift, Span.seenFrom, hstart', hstop']

/-- On a piece of the side the pixels are placed that are between the ends. -/
theorem placed_iff (h : s.FitsOn side) {d length : Nat} (hd : d < side) (source : Int → Nat → τ)
    {p : Nat} :
    (d + ((s.seenFrom d).placement length source).first ≤ p ∧
        p < d + ((s.seenFrom d).placement length source).first +
          ((s.seenFrom d).placement length source).count) ↔
      (d ≤ p ∧ p < d + length) ∧ s.Covers p := by
  obtain ⟨hside, hstart, hlt, hstop⟩ := h
  have hwalk : Coordinate.isWalkable (s.start - d) (s.stop - d) = true := by
    show decide (saturate32 (s.stop - d) - saturate32 (s.start - d) ≤ 2147483647) = true
    rw [decide_eq_true_eq, saturate32, saturate32]
    omega
  simp only [placement, Span.seenFrom, hwalk, if_true, Coordinate.edgePixel, Covers]
  omega

end FitsOn

end Span

/-! ### Patch by patch -/

def Piece.Has (piece : Piece) (p : Nat) : Prop := piece.first ≤ p ∧ p < piece.first + piece.length

instance (piece : Piece) (p : Nat) : Decidable (piece.Has p) :=
  inferInstanceAs (Decidable (_ ∧ _))

instance (s : Span Int) (p : Nat) : Decidable (s.Covers p) :=
  inferInstanceAs (Decidable (_ ∧ _))

/-- The piece at place `i` of a side. -/
def pieceAt (side i : Nat) : Piece := ⟨i * patchSide, min patchSide (side - i * patchSide)⟩

theorem pieces_eq (side : Nat) :
    pieces side = (List.range ((side + patchSide - 1) / patchSide)).map (pieceAt side) := rfl

/-- A pixel of a side is in one of its pieces. -/
theorem pieceAt_has_iff {side i p : Nat} (hp : p < side) :
    (pieceAt side i).Has p ↔ i = p / patchSide := by
  have hdiv := Nat.div_add_mod p patchSide
  have hmod := Nat.mod_lt p (show patchSide > 0 by decide)
  simp only [Piece.Has, pieceAt, patchSide] at *
  constructor
  · intro h
    omega
  · rintro rfl
    omega

theorem first_lt_of_mem {side : Nat} {piece : Piece} (h : piece ∈ pieces side) :
    piece.first < side := by
  rw [pieces_eq, List.mem_map] at h
  obtain ⟨i, hi, rfl⟩ := h
  rw [List.mem_range] at hi
  simp only [pieceAt, patchSide] at hi ⊢
  omega

theorem lt_of_has {side : Nat} {piece : Piece} (h : piece ∈ pieces side) {p : Nat}
    (hp : piece.Has p) : p < piece.first + patchSide := by
  rw [pieces_eq, List.mem_map] at h
  obtain ⟨i, -, rfl⟩ := h
  have hle : (pieceAt side i).length ≤ patchSide := Nat.min_le_left ..
  exact Nat.lt_of_lt_of_le hp.2 (Nat.add_le_add_left hle _)

theorem mem_pieces_of_mem_patches {canvas : Pixmap} {patch : Piece × Piece}
    (h : patch ∈ canvas.patches) :
    patch.1 ∈ pieces canvas.width ∧ patch.2 ∈ pieces canvas.height := by
  rw [Pixmap.patches, List.mem_flatMap] at h
  obtain ⟨rows, hrow, hmap⟩ := h
  obtain ⟨cols, hcol, rfl⟩ := List.mem_map.1 hmap
  exact ⟨hcol, hrow⟩

/-- A change that is made at one of `n` places. -/
theorem foldl_range_eq {α : Type} (n k : Nat) (f : α → α) (a : α) :
    (List.range n).foldl (fun a i => if i = k then f a else a) a = if k < n then f a else a := by
  induction n with
  | zero => simp
  | succ n ih =>
    rw [List.range_succ, List.foldl_append, ih]
    simp only [List.foldl_cons, List.foldl_nil]
    by_cases hlast : n = k
    · rw [if_pos hlast, if_neg (by omega), if_pos (by omega)]
    · rw [if_neg hlast]
      by_cases hk : k < n
      · rw [if_pos hk, if_pos (by omega)]
      · rw [if_neg hk, if_neg (by omega)]

/-- A change that is made in the piece of a pixel is made once. -/
theorem foldl_pieces_eq {α : Type} {side p : Nat} (hp : p < side) (f : α → α) (a : α) :
    (pieces side).foldl (fun a piece => if piece.Has p then f a else a) a = f a := by
  have hplace : p / patchSide < (side + patchSide - 1) / patchSide := by
    simp only [patchSide]
    omega
  rw [pieces_eq, List.foldl_map]
  simp only [pieceAt_has_iff hp]
  rw [foldl_range_eq, if_pos hplace]

/-- A change that is made in the patch of a pixel is made once. -/
theorem foldl_patches_eq {α : Type} {canvas : Pixmap} {px py : Nat} (hpx : px < canvas.width)
    (hpy : py < canvas.height) (f : α → α) (a : α) :
    canvas.patches.foldl (fun a patch => if patch.1.Has px ∧ patch.2.Has py then f a else a) a =
      f a := by
  rw [Pixmap.patches, List.foldl_flatMap]
  simp only [List.foldl_map]
  have hrow (a : α) (rows : Piece) :
      (pieces canvas.width).foldl
        (fun a cols => if cols.Has px ∧ rows.Has py then f a else a) a =
        if rows.Has py then f a else a := by
    simp only [ite_and]
    exact foldl_pieces_eq hpx (fun a => if rows.Has py then f a else a) a
  simp only [hrow]
  exact foldl_pieces_eq hpy f a

/-- What a source shows of the pixels of a span, from whichever pixel of their patch it is asked. -/
def Span.Shows {τ : Type} (s : Span Int) (source : Int → Nat → τ) (shown : Nat → τ) : Prop :=
  ∀ d p : Nat, d ≤ p → p < d + patchSide → s.Covers p → source (s.start - d) (p - d) = shown p

namespace Pixmap

variable {τ : Type} [Inhabited τ] {sourceX sourceY : Int → Nat → τ} {showX showY : Nat → τ}
  {canvas : Pixmap} {cols rows : Span Int}

/-- What becomes of a pixel that two spans may cover. -/
def coverCell (cols rows : Span Int) (showX showY : Nat → τ) (f : τ → τ → Pixel → Pixel)
    (px py : Nat) (cell : Option Pixel) : Option Pixel :=
  if cols.Covers px ∧ rows.Covers py then cell.map (f (showX px) (showY py)) else cell

/-- One patch: spans that fit come back as they were, and of the patch the pixels are painted that
both spans cover. -/
private theorem step_walk {w : Walk Int} (hcols : w.cols.FitsOn canvas.width)
    (hrows : w.rows.FitsOn canvas.height) (hshowX : w.cols.Shows sourceX showX)
    (hshowY : w.rows.Shows sourceY showY) (f : τ → τ → Pixel → Pixel) {patch : Piece × Piece}
    (hpatch : patch ∈ canvas.patches) :
    (w.step sourceX sourceY f patch).cols = w.cols ∧
    (w.step sourceX sourceY f patch).rows = w.rows ∧
    ∀ px py, (w.step sourceX sourceY f patch).canvas.cell? px py =
      if patch.1.Has px ∧ patch.2.Has py then
        coverCell w.cols w.rows showX showY f px py (w.canvas.cell? px py)
      else w.canvas.cell? px py := by
  obtain ⟨hcol, hrow⟩ := mem_pieces_of_mem_patches hpatch
  have hfirstX := first_lt_of_mem hcol
  have hfirstY := first_lt_of_mem hrow
  simp only [Walk.step, hcols.shift_neg hfirstX, hrows.shift_neg hfirstY,
    hcols.shift_seenFrom hfirstX, hrows.shift_seenFrom hfirstY, true_and]
  intro px py
  rw [cell?_paintPlaced]
  simp only [hcols.placed_iff hfirstX, hrows.placed_iff hfirstY, coverCell]
  by_cases hhas : patch.1.Has px ∧ patch.2.Has py
  · by_cases hcovers : w.cols.Covers px ∧ w.rows.Covers py
    · rw [if_pos ⟨⟨hhas.1, hcovers.1⟩, hhas.2, hcovers.2⟩, if_pos hhas, if_pos hcovers]
      have hx := hshowX _ _ hhas.1.1 (lt_of_has hcol hhas.1) hcovers.1
      have hy := hshowY _ _ hhas.2.1 (lt_of_has hrow hhas.2) hcovers.2
      exact congrArg (fun g => Option.map g _) (congrArg₂ f hx hy)
    · rw [if_neg fun h => hcovers ⟨h.1.2, h.2.2⟩, if_pos hhas, if_neg hcovers]
  · rw [if_neg fun h => hhas ⟨h.1.1, h.2.1⟩, if_neg hhas]

private theorem cell?_walk {w : Walk Int} (hcols : w.cols.FitsOn canvas.width)
    (hrows : w.rows.FitsOn canvas.height) (hshowX : w.cols.Shows sourceX showX)
    (hshowY : w.rows.Shows sourceY showY) (f : τ → τ → Pixel → Pixel)
    {patches : List (Piece × Piece)} (hpatches : ∀ patch ∈ patches, patch ∈ canvas.patches)
    (px py : Nat) :
    (patches.foldl (Walk.step sourceX sourceY f) w).canvas.cell? px py =
      patches.foldl
        (fun cell patch =>
          if patch.1.Has px ∧ patch.2.Has py then
            coverCell w.cols w.rows showX showY f px py cell
          else cell)
        (w.canvas.cell? px py) := by
  induction patches generalizing w with
  | nil => rfl
  | cons patch patches ih =>
    obtain ⟨hsameCols, hsameRows, hcell⟩ :=
      step_walk hcols hrows hshowX hshowY f (hpatches patch List.mem_cons_self)
    rw [List.foldl_cons, List.foldl_cons, ← hcell px py]
    have hrest := ih (w := w.step sourceX sourceY f patch) (hsameCols ▸ hcols) (hsameRows ▸ hrows)
      (hsameCols ▸ hshowX) (hsameRows ▸ hshowY)
      fun patch' hpatch' => hpatches patch' (List.mem_cons_of_mem _ hpatch')
    rwa [hsameCols, hsameRows] at hrest

/-- Painting by spans keeps the size of a canvas. -/
theorem size_paintSpans {κ : Type} [Coordinate κ] (canvas : Pixmap) (cols rows : Span κ)
    (sourceX sourceY : κ → Nat → τ) (f : τ → τ → Pixel → Pixel) :
    (canvas.paintSpans cols rows sourceX sourceY f).width = canvas.width ∧
      (canvas.paintSpans cols rows sourceX sourceY f).height = canvas.height := by
  have hwalk (patches : List (Piece × Piece)) (w : Walk κ) :
      (patches.foldl (Walk.step sourceX sourceY f) w).canvas.width = w.canvas.width ∧
        (patches.foldl (Walk.step sourceX sourceY f) w).canvas.height = w.canvas.height := by
    induction patches generalizing w with
    | nil => exact ⟨rfl, rfl⟩
    | cons patch patches ih => exact ih _
  unfold paintSpans
  split
  · exact ⟨rfl, rfl⟩
  · exact hwalk canvas.patches ⟨canvas, cols, rows⟩

/-- Spans that fit are painted exactly. -/
theorem cell?_paintSpans (hcols : cols.FitsOn canvas.width) (hrows : rows.FitsOn canvas.height)
    (hshowX : cols.Shows sourceX showX) (hshowY : rows.Shows sourceY showY)
    (f : τ → τ → Pixel → Pixel) {px py : Nat} (hpx : px < canvas.width) (hpy : py < canvas.height) :
    (canvas.paintSpans cols rows sourceX sourceY f).cell? px py =
      coverCell cols rows showX showY f px py (canvas.cell? px py) := by
  have hthinX : cols.isThin = false := by
    show decide (cols.stop ≤ cols.start) = false
    exact decide_eq_false (Int.not_le.2 hcols.start_lt)
  have hthinY : rows.isThin = false := by
    show decide (rows.stop ≤ rows.start) = false
    exact decide_eq_false (Int.not_le.2 hrows.start_lt)
  simp only [paintSpans, hthinX, hthinY, Bool.or_self, Bool.false_eq_true, if_false]
  rw [cell?_walk (w := ⟨canvas, cols, rows⟩) hcols hrows hshowX hshowY f (fun _ => id) px py]
  exact foldl_patches_eq hpx hpy _ _

end Pixmap

/-! ### Whole pixels -/

namespace Span

variable {s : Span Int} {τ : Type}

/-- Counted in whole pixels a span is as long as it is, if it does not begin before the first pixel
and twice its ends are still integers that single precision keeps. -/
theorem wholePixels_eq (hstart : 0 ≤ s.start) (hlt : s.start < s.stop) (hstop : s.stop ≤ 8388607)
    (side : Nat) (source : Int → Nat → τ) :
    s.wholePixels side source =
      some ⟨min s.start.toNat side, min s.stop.toNat side - min s.start.toNat side,
        source s.start⟩ := by
  have hcorner {x : Int} (h : 0 ≤ x) (h' : x ≤ 8388607) : cornerPixel x = x := by
    have hhalf : single (2 * x + 1) = 2 * x + 1 := single_of_le (by omega)
    have hdiv : (2 * x + 1).tdiv 2 = x := by
      rw [Int.tdiv_eq_ediv_of_nonneg (by omega)]
      omega
    rw [cornerPixel, hhalf, hdiv, maxPixel]
    omega
  have hlength : single (s.stop - s.start) = s.stop - s.start := single_of_le (by omega)
  have hone : max 1 (s.stop - s.start) = s.stop - s.start := by omega
  have hend : s.start + (s.stop - s.start) = s.stop := by omega
  simp only [wholePixels, hlength, hcorner hstart (by omega),
    hcorner (x := s.stop - s.start) (by omega) (by omega), hone, hend]
  exact if_neg (by omega)

/-- Moving a span loses nothing as long as all numbers on the way are small. -/
theorem moved_eq {origin length offset : Int} (horigin : origin.natAbs ≤ 16777216)
    (hlength : length.natAbs ≤ 16777216) (hoffset : offset.natAbs ≤ 16777216)
    (hend : (origin + length).natAbs ≤ 16777216) (hstart : (origin - offset).natAbs ≤ 16777216)
    (hstop : (origin + length - offset).natAbs ≤ 16777216) :
    moved origin length offset = ⟨origin - offset, origin + length - offset⟩ := by
  simp only [moved, single_of_le horigin, single_of_le hlength, single_of_le hoffset,
    single_of_le hend, ← Int.sub_eq_add_neg, single_of_le hstart, single_of_le hstop]

theorem moved_zero {o : Int} {n : Nat} (ho : 0 ≤ o) (hend : o + n ≤ 16777216) :
    moved o n 0 = ⟨o, o + n⟩ := by
  rw [moved_eq (by omega) (by omega) (by omega) (by omega) (by omega) (by omega)]
  simp only [Int.sub_zero]

/-- Both ends are on the side, and within what single precision keeps. -/
structure LiesOn (s : Span Int) (side : Nat) : Prop where
  side_le : side ≤ 16777217
  start_nonneg : 0 ≤ s.start
  start_lt : s.start < s.stop
  stop_le : s.stop ≤ side
  stop_le_single : s.stop ≤ 16777216

theorem LiesOn.fitsOn {side : Nat} (h : s.LiesOn side) : s.FitsOn side := by
  obtain ⟨hside, hstart, hlt, -, hstop⟩ := h
  exact ⟨hside, by omega, hlt, hstop⟩

theorem LiesOn.of_le {o : Int} {n side : Nat} (ho : 0 ≤ o) (hn : 0 < n) (hend : o + n ≤ side)
    (hside : side ≤ 16777216) : (⟨o, o + n⟩ : Span Int).LiesOn side :=
  ⟨by omega, ho, by simp only; omega, hend, by simp only; omega⟩

end Span

namespace Pixmap

variable {τ : Type} [Inhabited τ] {sourceX sourceY : Int → Nat → τ} {showX showY : Nat → τ}
  {canvas : Pixmap} {cols rows : Span Int}

theorem size_paintWhole (canvas : Pixmap) (cols rows : Span Int) (sourceX sourceY : Int → Nat → τ)
    (f : τ → τ → Pixel → Pixel) :
    (canvas.paintWhole cols rows sourceX sourceY f).width = canvas.width ∧
      (canvas.paintWhole cols rows sourceX sourceY f).height = canvas.height := by
  unfold paintWhole
  split
  · exact size_paintSpans ..
  · split
    · exact ⟨rfl, rfl⟩
    · exact ⟨rfl, rfl⟩

theorem sides_le_of_isLarge (h : canvas.isLarge = false) :
    canvas.width ≤ patchSide ∧ canvas.height ≤ patchSide := by
  simp only [isLarge, Bool.or_eq_false_iff, decide_eq_false_iff_not, Nat.not_lt] at h
  exact h

theorem isLarge_of_lt (h : patchSide < canvas.width) : canvas.isLarge = true := by
  rw [isLarge, decide_eq_true h, Bool.true_or]

/-- What is painted in one go begins at the first patch, and has no other. -/
theorem cell?_paintWhole (hcols : cols.FitsOn canvas.width) (hrows : rows.FitsOn canvas.height)
    (hshowX : cols.Shows sourceX showX) (hshowY : rows.Shows sourceY showY)
    (hsmall : canvas.isLarge = false →
      (0 ≤ cols.start ∧ cols.stop ≤ 8388607) ∧ (0 ≤ rows.start ∧ rows.stop ≤ 8388607))
    (f : τ → τ → Pixel → Pixel) {px py : Nat} (hpx : px < canvas.width) (hpy : py < canvas.height) :
    (canvas.paintWhole cols rows sourceX sourceY f).cell? px py =
      coverCell cols rows showX showY f px py (canvas.cell? px py) := by
  unfold paintWhole
  cases hlarge : canvas.isLarge with
  | true => exact cell?_paintSpans hcols hrows hshowX hshowY f hpx hpy
  | false =>
    obtain ⟨⟨hstartX, hstopX⟩, hstartY, hstopY⟩ := hsmall hlarge
    obtain ⟨hwidth, hheight⟩ := sides_le_of_isLarge hlarge
    have hwhole {s : Span Int} {p side : Nat} (hp : p < side) :
        (0 + min s.start.toNat side ≤ p ∧
          p < 0 + min s.start.toNat side + (min s.stop.toNat side - min s.start.toNat side)) ↔
          s.Covers p := by
      rw [Span.Covers]
      omega
    simp only [Bool.false_eq_true, if_false,
      Span.wholePixels_eq hstartX hcols.start_lt hstopX canvas.width sourceX,
      Span.wholePixels_eq hstartY hrows.start_lt hstopY canvas.height sourceY]
    rw [cell?_paintPlaced]
    simp only [hwhole hpx, hwhole hpy, coverCell]
    by_cases hcovers : cols.Covers px ∧ rows.Covers py
    · rw [if_pos hcovers, if_pos hcovers]
      have hx := hshowX 0 px (Nat.zero_le px) (by omega) hcovers.1
      have hy := hshowY 0 py (Nat.zero_le py) (by omega) hcovers.2
      simp only [Int.natCast_zero, Int.sub_zero] at hx hy
      rw [hx, hy]
    · rw [if_neg hcovers, if_neg hcovers]

theorem size_coatRect (canvas : Pixmap) (x y : Int) (w h : Nat) (c : Color) :
    (canvas.coatRect x y w h c).width = canvas.width ∧
      (canvas.coatRect x y w h c).height = canvas.height :=
  size_paintWhole ..

/-- A rectangle is coated where its sides come to lie, if that is on the canvas. -/
theorem cell?_coatRect_of_liesOn {x y : Int} {w h : Nat} {cols rows : Span Int}
    (hmovedX : Span.moved x w 0 = cols) (hmovedY : Span.moved y h 0 = rows)
    (hcols : cols.LiesOn canvas.width) (hrows : rows.LiesOn canvas.height) (c : Color) {px py : Nat}
    (hpx : px < canvas.width) (hpy : py < canvas.height) :
    (canvas.coatRect x y w h c).cell? px py =
      if cols.Covers px ∧ rows.Covers py then (canvas.cell? px py).map c.paint.coat
      else canvas.cell? px py := by
  have hshows (s : Span Int) : s.Shows (fun _ _ => ()) fun _ => () := fun _ _ _ _ _ => rfl
  have hsmall (hlarge : canvas.isLarge = false) :
      (0 ≤ cols.start ∧ cols.stop ≤ 8388607) ∧ (0 ≤ rows.start ∧ rows.stop ≤ 8388607) := by
    have hsides := sides_le_of_isLarge hlarge
    have hstopX := hcols.stop_le
    have hstopY := hrows.stop_le
    simp only [patchSide] at hsides
    exact ⟨⟨hcols.start_nonneg, by omega⟩, hrows.start_nonneg, by omega⟩
  rw [coatRect, hmovedX, hmovedY]
  exact cell?_paintWhole hcols.fitsOn hrows.fitsOn (hshows _) (hshows _) hsmall _ hpx hpy

/-- A rectangle that lies on the canvas is coated exactly. -/
theorem cell?_coatRect {x y : Int} {w h : Nat} (hx : 0 ≤ x) (hw : 0 < w)
    (hright : x + w ≤ canvas.width) (hy : 0 ≤ y) (hh : 0 < h) (hbottom : y + h ≤ canvas.height)
    (hwidth : canvas.width ≤ 16777216) (hheight : canvas.height ≤ 16777216) (c : Color)
    {px py : Nat} (hpx : px < canvas.width) (hpy : py < canvas.height) :
    (canvas.coatRect x y w h c).cell? px py =
      if (x ≤ px ∧ px < x + w) ∧ (y ≤ py ∧ py < y + h) then (canvas.cell? px py).map c.paint.coat
      else canvas.cell? px py :=
  cell?_coatRect_of_liesOn (Span.moved_zero hx (by omega)) (Span.moved_zero hy (by omega))
    (Span.LiesOn.of_le hx hw hright hwidth) (Span.LiesOn.of_le hy hh hbottom hheight) c hpx hpy

end Pixmap

end WorldMap
