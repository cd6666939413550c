import WorldMap.Image.Pixmap
import WorldMap.Image.Placement
/-!
# Canvases in patches

A canvas whose sides are at most `patchSide` pixels is painted in one go. A larger one is painted patch
by patch, row by row. For each patch the rectangle that is drawn is moved to where it lies as seen from
the patch, and moved back afterwards; what rounding does to it on the way is not undone.
-/

namespace WorldMap

/-- The side of the largest canvas that is painted in one go. -/
def patchSide : Nat := 8191

structure Piece where
  first : Nat
  length : Nat

/-- A side cut into pieces of `patchSide` pixels, of which the last may be shorter. -/
def pieces (side : Nat) : List Piece :=
  (List.range ((side + patchSide - 1) / patchSide)).map fun i =>
    ⟨i * patchSide, min patchSide (side - i * patchSide)⟩

namespace Pixmap

def isLarge (p : Pixmap) : Bool := patchSide < p.width || patchSide < p.height

def patches (p : Pixmap) : List (Piece × Piece) :=
  (pieces p.height).flatMap fun rows => (pieces p.width).map fun cols => (cols, rows)

/-- Paints the pixels that both placements cover, which start at the pixel `(x, y)` of the canvas. What
a column or a row shows is found once. -/
def paintPlaced {τ : Type} [Inhabited τ] (canvas : Pixmap) (x y : Nat) (cols rows : Placement τ)
    (f : τ → τ → Pixel → Pixel) : Pixmap :=
  let colSources := Array.ofFn fun i : Fin cols.count => cols.source (cols.first + i)
  let rowSources := Array.ofFn fun j : Fin rows.count => rows.source (rows.first + j)
  let left := x + cols.first
  let top := y + rows.first
  canvas.paint left top cols.count rows.count fun px py =>
    f (colSources.getD (px - left) default) (rowSources.getD (py - top) default)

structure Walk (κ : Type) where
  canvas : Pixmap
  cols : Span κ
  rows : Span κ

variable {κ τ : Type} [Coordinate κ] [Inhabited τ]

def Walk.step (sourceX sourceY : κ → Nat → τ) (f : τ → τ → Pixel → Pixel) (w : Walk κ)
    (patch : Piece × Piece) : Walk κ :=
  let cols := w.cols.shift (-patch.1.first)
  let rows := w.rows.shift (-patch.2.first)
  let across := cols.placement patch.1.length sourceX
  let down := rows.placement patch.2.length sourceY
  { canvas := w.canvas.paintPlaced patch.1.first patch.2.first across down f
    cols := cols.shift patch.1.first
    rows := rows.shift patch.2.first }

/-- Paints the pixels with their middle in both spans, unless one of the spans is next to nothing. -/
def paintSpans (canvas : Pixmap) (cols rows : Span κ) (sourceX sourceY : κ → Nat → τ)
    (f : τ → τ → Pixel → Pixel) : Pixmap :=
  if cols.isThin || rows.isThin then canvas
  else (canvas.patches.foldl (Walk.step sourceX sourceY f) ⟨canvas, cols, rows⟩).canvas

/-- Paints spans that are where they were asked for. On a canvas that is painted in one go their
lengths are counted in whole pixels. -/
def paintWhole (canvas : Pixmap) (cols rows : Span Int) (sourceX sourceY : Int → Nat → τ)
    (f : τ → τ → Pixel → Pixel) : Pixmap :=
  if canvas.isLarge then canvas.paintSpans cols rows sourceX sourceY f
  else
    match cols.wholePixels canvas.width sourceX, rows.wholePixels canvas.height sourceY with
    | some across, some down => canvas.paintPlaced 0 0 across down f
    | _, _ => canvas

def coatRect (p : Pixmap) (x y : Int) (w h : Nat) (c : Color) : Pixmap :=
  let paint := c.paint
  p.paintWhole (Span.moved x w 0) (Span.moved y h 0) (fun _ _ => ()) (fun _ _ => ())
    fun _ _ => paint.coat

end Pixmap

end WorldMap
