/-!
# Rasters

A rectangle of cells stored row by row. `cell?` is the only view of a raster: every operation here
is described by what it does to `cell?`, and it keeps the size.
-/

namespace WorldMap

/-- `height` rows of `width` cells. -/
structure Raster (α : Type) where
  width : Nat
  height : Nat
  cells : Array α
  size_cells : cells.size = width * height

namespace Raster

variable {α β : Type}

def replicate (width height : Nat) (a : α) : Raster α :=
  ⟨width, height, Array.replicate (width * height) a, Array.size_replicate⟩

def cell? (r : Raster α) (x y : Nat) : Option α :=
  if x < r.width then r.cells[y * r.width + x]? else none

def row (r : Raster α) (y : Nat) : List α := (List.range r.width).filterMap (r.cell? · y)

def map (f : α → β) (r : Raster α) : Raster β :=
  ⟨r.width, r.height, r.cells.map f, by rw [Array.size_map, r.size_cells]⟩

/-- Changes the `n` cells from index `start` on by `f`, which is told which of them it changes. -/
def paintRow (f : Nat → α → α) (start : Nat) : Nat → Array α → Array α
  | 0, cells => cells
  | n + 1, cells => paintRow f start n (cells.modify (start + n) (f n))

theorem size_paintRow (f : Nat → α → α) (start n : Nat) (cells : Array α) :
    (paintRow f start n cells).size = cells.size := by
  induction n generalizing cells with
  | zero => rfl
  | succ n ih => rw [paintRow, ih, Array.size_modify]

def paintRows (f : Nat → Nat → α → α) (stride x y w : Nat) : Nat → Array α → Array α
  | 0, cells => cells
  | h + 1, cells =>
    paintRows f stride x y w h
      (paintRow (fun i => f (x + i) (y + h)) ((y + h) * stride + x) w cells)

theorem size_paintRows (f : Nat → Nat → α → α) (stride x y w h : Nat) (cells : Array α) :
    (paintRows f stride x y w h cells).size = cells.size := by
  induction h generalizing cells with
  | zero => rfl
  | succ h ih => rw [paintRows, ih, size_paintRow]

/-- Changes the cells with `x ≤ column < x + w` and `y ≤ row < y + h` that there are. -/
def paint (r : Raster α) (x y w h : Nat) (f : Nat → Nat → α → α) : Raster α where
  width := r.width
  height := r.height
  cells := paintRows f r.width x y (min w (r.width - x)) (min h (r.height - y)) r.cells
  size_cells := by rw [size_paintRows, r.size_cells]

def modify (r : Raster α) (x y : Nat) (f : α → α) : Raster α := r.paint x y 1 1 fun _ _ => f

@[simp] theorem width_paint (r : Raster α) (x y w h : Nat) (f : Nat → Nat → α → α) :
    (r.paint x y w h f).width = r.width := rfl

@[simp] theorem height_paint (r : Raster α) (x y w h : Nat) (f : Nat → Nat → α → α) :
    (r.paint x y w h f).height = r.height := rfl

theorem place_lt_of_row_lt {width x y y' : Nat} (hx : x < width) (hy : y < y') :
    y * width + x < y' * width := by
  have step : (y + 1) * width ≤ y' * width := Nat.mul_le_mul_right width hy
  rw [Nat.succ_mul] at step
  omega

theorem cell?_isSome_iff {r : Raster α} {x y : Nat} :
    (r.cell? x y).isSome ↔ x < r.width ∧ y < r.height := by
  have place : r.cells[y * r.width + x]?.isSome ↔ y * r.width + x < r.height * r.width := by
    rw [Nat.mul_comm r.height, ← r.size_cells]
    simp
  unfold cell?
  by_cases hx : x < r.width
  · rw [if_pos hx, place]
    refine ⟨fun inside => ⟨hx, ?_⟩, fun inside => place_lt_of_row_lt hx inside.2⟩
    apply Nat.lt_of_not_le
    intro below
    have := Nat.mul_le_mul_right r.width below
    omega
  · simp [hx]

@[simp] theorem cell?_replicate (width height : Nat) (a : α) (x y : Nat) :
    (replicate width height a).cell? x y = if x < width ∧ y < height then some a else none := by
  have known := cell?_isSome_iff (r := replicate width height a) (x := x) (y := y)
  change _ ↔ x < width ∧ y < height at known
  unfold cell? replicate at known ⊢
  by_cases hx : x < width
  · simp only [hx, if_true, true_and, Array.getElem?_replicate] at known ⊢
    by_cases hy : y < height
    · have inside := known.2 hy
      simp only [hy, if_true]
      split at inside
      · simp_all
      · simp at inside
    · have outside := mt known.1 hy
      simp only [hy, if_false]
      split at outside
      · simp at outside
      · simp_all
  · simp [hx]

@[simp] theorem cell?_map (f : α → β) (r : Raster α) (x y : Nat) :
    (r.map f).cell? x y = (r.cell? x y).map f := by
  unfold cell? map
  split <;> simp

theorem getElem?_paintRow (f : Nat → α → α) (start n : Nat) (cells : Array α) (i : Nat) :
    (paintRow f start n cells)[i]?
      = if start ≤ i ∧ i < start + n then cells[i]?.map (f (i - start)) else cells[i]? := by
  induction n generalizing cells with
  | zero => rw [paintRow, if_neg (by omega)]
  | succ n ih =>
    rw [paintRow, ih, Array.getElem?_modify]
    by_cases last : start + n = i
    · rw [if_neg (by omega), if_pos last, if_pos (by omega)]
      congr 2
      omega
    · rw [if_neg last]
      by_cases inside : start ≤ i ∧ i < start + n
      · rw [if_pos inside, if_pos (by omega)]
      · rw [if_neg inside, if_neg (by omega)]

theorem getElem?_paintRows (f : Nat → Nat → α → α) {stride x w : Nat} (fits : x + w ≤ stride)
    (y h : Nat) (cells : Array α) {cx : Nat} (hx : cx < stride) (cy : Nat) :
    (paintRows f stride x y w h cells)[cy * stride + cx]?
      = if (x ≤ cx ∧ cx < x + w) ∧ (y ≤ cy ∧ cy < y + h) then
          cells[cy * stride + cx]?.map (f cx cy)
        else cells[cy * stride + cx]? := by
  induction h generalizing cells with
  | zero => rw [paintRows, if_neg (by omega)]
  | succ h ih =>
    rw [paintRows, ih, getElem?_paintRow]
    by_cases last : cy = y + h
    · subst last
      rw [if_neg (by omega : ¬((x ≤ cx ∧ cx < x + w) ∧ (y ≤ y + h ∧ y + h < y + h)))]
      by_cases inside : x ≤ cx ∧ cx < x + w
      · rw [if_pos (by omega), if_pos (by omega)]
        congr 2
        omega
      · rw [if_neg (by omega), if_neg (by omega)]
    · have apart : ¬((y + h) * stride + x ≤ cy * stride + cx
          ∧ cy * stride + cx < (y + h) * stride + x + w) := by
        intro inside
        rcases Nat.lt_or_gt_of_ne last with above | below
        · have := place_lt_of_row_lt hx above
          omega
        · have next : (y + h + 1) * stride ≤ cy * stride := Nat.mul_le_mul_right stride below
          rw [Nat.succ_mul] at next
          omega
      rw [if_neg apart]
      by_cases inside : (x ≤ cx ∧ cx < x + w) ∧ (y ≤ cy ∧ cy < y + h)
      · rw [if_pos inside, if_pos (by omega)]
      · rw [if_neg inside, if_neg (by omega)]

/-- Painting changes the cells of the rectangle and no others. -/
theorem cell?_paint (r : Raster α) (x y w h : Nat) (f : Nat → Nat → α → α) (cx cy : Nat) :
    (r.paint x y w h f).cell? cx cy
      = if (x ≤ cx ∧ cx < x + w) ∧ (y ≤ cy ∧ cy < y + h) then (r.cell? cx cy).map (f cx cy)
        else r.cell? cx cy := by
  by_cases there : cx < r.width ∧ cy < r.height
  · obtain ⟨hx, hy⟩ := there
    by_cases left : x ≤ r.width
    · unfold cell? paint
      simp only [hx, if_true]
      rw [getElem?_paintRows f (by omega) y _ r.cells hx cy]
      by_cases inside : (x ≤ cx ∧ cx < x + w) ∧ (y ≤ cy ∧ cy < y + h)
      · rw [if_pos inside, if_pos (by omega)]
      · rw [if_neg inside, if_neg (by omega)]
    · have nothing : min w (r.width - x) = 0 := by omega
      have same : ∀ (n : Nat) (cells : Array α),
          paintRows f r.width x y 0 n cells = cells := by
        intro n
        induction n with
        | zero => intro cells; rfl
        | succ n ih => intro cells; rw [paintRows, paintRow, ih]
      unfold cell? paint
      simp only [nothing, same, hx, if_true]
      rw [if_neg (by omega)]
  · have gone : r.cell? cx cy = none := by
      rw [← Option.not_isSome_iff_eq_none]
      exact mt cell?_isSome_iff.1 there
    have goneToo : (r.paint x y w h f).cell? cx cy = none := by
      rw [← Option.not_isSome_iff_eq_none]
      exact mt cell?_isSome_iff.1 there
    rw [gone, goneToo]
    simp

end Raster

end WorldMap
