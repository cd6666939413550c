import Mathlib.Logic.ExistsUnique
import WorldMap.Proofs.Geometry.Viewport
/-!
# Pixels and the world points they stand for

A pixel stands for a square of world points, `scale` of them along each axis. The squares part the
plane, as the pixel of a point is the quotient of its distance from the offset, rounded down
(`shows_iff`). Both directions of a viewport are about these squares: `toWorld` comes to the first
point of a pixel's square, and `toOutput` to the pixel in whose square a point lies. The words they
compute in decide only whether there is a result.
-/

namespace WorldMap

namespace Viewport

variable {v : Viewport} {px py wx wy x y : Int}

/-- The pixel stands for the world point. It may lie off the output, also before its first pixel. -/
structure Shows (v : Viewport) (px py wx wy : Int) : Prop where
  left_le : px * v.scale.toNat + v.offsetX.toInt ≤ wx
  lt_right : wx < px * v.scale.toNat + v.offsetX.toInt + v.scale.toNat
  top_le : py * v.scale.toNat + v.offsetY.toInt ≤ wy
  lt_bottom : wy < py * v.scale.toNat + v.offsetY.toInt + v.scale.toNat

/-- On one axis: a quotient, rounded down, tells the stretch of points that it stands for. -/
theorem ediv_sub_eq_iff {p s o w : Int} (hs : 0 < s) :
    (w - o) / s = p ↔ p * s + o ≤ w ∧ w < p * s + o + s := by
  rw [Int.ediv_eq_iff_of_pos hs]
  omega

theorem shows_iff (hscale : v.scale ≠ 0) :
    v.Shows px py wx wy ↔
      (wx - v.offsetX.toInt) / v.scale.toNat = px ∧ (wy - v.offsetY.toInt) / v.scale.toNat = py := by
  rw [ediv_sub_eq_iff (IntRange.toNat_pos hscale), ediv_sub_eq_iff (IntRange.toNat_pos hscale)]
  constructor
  · rintro ⟨hleft, hright, htop, hbottom⟩
    exact ⟨⟨hleft, hright⟩, htop, hbottom⟩
  · rintro ⟨⟨hleft, hright⟩, htop, hbottom⟩
    exact ⟨hleft, hright, htop, hbottom⟩

/-- The squares of the pixels part the plane. -/
theorem existsUnique_shows (hscale : v.scale ≠ 0) (wx wy : Int) :
    ∃! p : Int × Int, v.Shows p.1 p.2 wx wy := by
  refine ⟨((wx - v.offsetX.toInt) / v.scale.toNat, (wy - v.offsetY.toInt) / v.scale.toNat),
    (shows_iff hscale).2 ⟨rfl, rfl⟩, ?_⟩
  rintro ⟨px, py⟩ hshows
  obtain ⟨hx, hy⟩ := (shows_iff hscale).1 hshows
  rw [hx, hy]

/-! ### The two directions -/

theorem outputCoordinate_eq_ok_iff {w p : Int} {scale : UInt32} {offset : Int32} (hscale : scale ≠ 0) :
    outputCoordinate w scale offset = .ok p ↔
      w - offset.toInt ∈ IntRange.signed64 ∧ (w - offset.toInt) / scale.toNat = p := by
  by_cases hdistance : w - offset.toInt ∈ IntRange.signed64
  · rw [outputCoordinate_eq hscale hdistance, Except.ok.injEq]
    exact (and_iff_right hdistance).symm
  · have herror : outputCoordinate w scale offset = .error .subtraction := by
      rw [outputCoordinate, IntRange.sub_of_not_mem hdistance]
      rfl
    rw [herror]
    constructor
    · intro hok
      cases hok
    · rintro ⟨hmem, -⟩
      exact absurd hmem hdistance

/-- The pixel of a world point is the one that stands for it. There is none if the distance of the
point from the offset is no 64-bit word. -/
theorem toOutput_eq_ok_iff (hscale : v.scale ≠ 0) :
    v.toOutput wx wy = .ok (px, py) ↔
      wx - v.offsetX.toInt ∈ IntRange.signed64 ∧ wy - v.offsetY.toInt ∈ IntRange.signed64 ∧
        v.Shows px py wx wy := by
  rw [shows_iff hscale]
  constructor
  · intro hok
    rw [toOutput] at hok
    cases hx : outputCoordinate wx v.scale v.offsetX with
    | error _ => rw [hx] at hok; cases hok
    | ok qx =>
      cases hy : outputCoordinate wy v.scale v.offsetY with
      | error _ => rw [hx, hy] at hok; cases hok
      | ok qy =>
        rw [hx, hy] at hok
        obtain ⟨rfl, rfl⟩ := Prod.mk.inj (Except.ok.inj hok)
        obtain ⟨hmemX, hquotientX⟩ := (outputCoordinate_eq_ok_iff hscale).1 hx
        obtain ⟨hmemY, hquotientY⟩ := (outputCoordinate_eq_ok_iff hscale).1 hy
        exact ⟨hmemX, hmemY, hquotientX, hquotientY⟩
  · rintro ⟨hmemX, hmemY, rfl, rfl⟩
    exact toOutput_eq hscale hmemX hmemY

/-- The numbers that `toWorld` comes to are 64-bit words. -/
structure InWorld (v : Viewport) (px py : UInt32) : Prop where
  productX_mem : (px.toNat : Int) * v.scale.toNat ∈ IntRange.signed64
  sumX_mem : (px.toNat : Int) * v.scale.toNat + v.offsetX.toInt ∈ IntRange.signed64
  productY_mem : (py.toNat : Int) * v.scale.toNat ∈ IntRange.signed64
  sumY_mem : (py.toNat : Int) * v.scale.toNat + v.offsetY.toInt ∈ IntRange.signed64

theorem toWorld_of_inWorld {px py : UInt32} (h : v.InWorld px py) :
    v.toWorld px py = .ok
      (px.toNat * v.scale.toNat + v.offsetX.toInt, py.toNat * v.scale.toNat + v.offsetY.toInt) := by
  rw [toWorld, worldCoordinate_of_mem h.productX_mem h.sumX_mem,
    worldCoordinate_of_mem h.productY_mem h.sumY_mem]
  rfl

/-- The first point of a pixel's square leads back to the pixel. -/
theorem toOutput_of_toWorld {px py : UInt32} (hscale : v.scale ≠ 0) (h : v.InWorld px py)
    (hworld : v.toWorld px py = .ok (x, y)) : v.toOutput x y = .ok (px.toNat, py.toNat) := by
  have hpos := IntRange.toNat_pos hscale
  obtain ⟨rfl, rfl⟩ := Prod.mk.inj (Except.ok.inj (hworld.symm.trans (toWorld_of_inWorld h)))
  rw [toOutput_eq_ok_iff hscale, Int.add_sub_cancel, Int.add_sub_cancel]
  exact ⟨h.productX_mem, h.productY_mem, Int.le_refl _, by omega, Int.le_refl _, by omega⟩

/-- Pixels and the points of the world correspond. What `toWorld` comes to is the first point of a
pixel's square, `toOutput` leads from there back to the pixel, and it leads to the pixel from the
points of the square and from no others. Every point of the world belongs to one pixel and to no
other, which is the one that `toOutput` comes to, wherever it lies; and to the right or below there
are only pixels to the right or below, or the same. -/
theorem pixels_part_world (v : Viewport) (hscale : v.scale ≠ 0) :
    (∀ px py : UInt32, v.InWorld px py →
      ∃ x y, v.toWorld px py = .ok (x, y) ∧ v.toOutput x y = .ok (px.toNat, py.toNat) ∧
        ∀ wx wy, wx - v.offsetX.toInt ∈ IntRange.signed64 →
          wy - v.offsetY.toInt ∈ IntRange.signed64 →
          (v.toOutput wx wy = .ok (px.toNat, py.toNat) ↔
            (x ≤ wx ∧ wx < x + v.scale.toNat) ∧ y ≤ wy ∧ wy < y + v.scale.toNat)) ∧
    (∀ wx wy : Int, ∃! p : Int × Int, v.Shows p.1 p.2 wx wy) ∧
    (∀ wx wy, wx - v.offsetX.toInt ∈ IntRange.signed64 →
      wy - v.offsetY.toInt ∈ IntRange.signed64 →
      ∃ px py, v.toOutput wx wy = .ok (px, py) ∧ v.Shows px py wx wy) ∧
    ∀ wx wy wx' wy' px py px' py', v.toOutput wx wy = .ok (px, py) →
      v.toOutput wx' wy' = .ok (px', py') →
      (wx ≤ wx' → px ≤ px') ∧ (wy ≤ wy' → py ≤ py') := by
  have hpos := IntRange.toNat_pos hscale
  refine ⟨fun px py h => ?_, existsUnique_shows hscale, fun wx wy hx hy => ?_, ?_⟩
  · have hworld := toWorld_of_inWorld h
    refine ⟨_, _, hworld, toOutput_of_toWorld hscale h hworld, fun wx wy hx hy => ?_⟩
    rw [toOutput_eq_ok_iff hscale, and_iff_right hx, and_iff_right hy]
    constructor
    · rintro ⟨hleft, hright, htop, hbottom⟩
      exact ⟨⟨hleft, hright⟩, htop, hbottom⟩
    · rintro ⟨⟨hleft, hright⟩, htop, hbottom⟩
      exact ⟨hleft, hright, htop, hbottom⟩
  · have houtput := toOutput_eq hscale hx hy
    exact ⟨_, _, houtput, ((toOutput_eq_ok_iff hscale).1 houtput).2.2⟩
  · intro wx wy wx' wy' px py px' py' h h'
    obtain ⟨-, -, hshows⟩ := (toOutput_eq_ok_iff hscale).1 h
    obtain ⟨-, -, hshows'⟩ := (toOutput_eq_ok_iff hscale).1 h'
    obtain ⟨rfl, rfl⟩ := (shows_iff hscale).1 hshows
    obtain ⟨rfl, rfl⟩ := (shows_iff hscale).1 hshows'
    exact ⟨fun hle => Int.ediv_le_ediv hpos (Int.sub_le_sub_right hle _),
      fun hle => Int.ediv_le_ediv hpos (Int.sub_le_sub_right hle _)⟩

/-- Squares of three by three points, the first of them neither at the origin nor at a multiple of
three. -/
private def shiftedView : Viewport := ⟨64, 48, 3, -7, 5⟩

/-- The point left of and above the output belongs to the pixel before the first one; and a pixel far
off the output, whose square is no longer in reach of 32 bits, is led back to. -/
theorem pixels_part_world_shiftedView :
    shiftedView.scale ≠ 0 ∧ shiftedView.InWorld 2 4294967295 ∧
    shiftedView.toWorld 2 4294967295 = .ok (-1, 12884901890) ∧
    shiftedView.toOutput (-1) 12884901890 = .ok (2, 4294967295) ∧
    (shiftedView.toOutput 2 12884901892 = .ok (2, 4294967295) ↔
      (-1 ≤ (2 : Int) ∧ (2 : Int) < -1 + 3) ∧
        12884901890 ≤ (12884901892 : Int) ∧ (12884901892 : Int) < 12884901890 + 3) ∧
    (∃ px py, shiftedView.toOutput (-8) 4 = .ok (px, py) ∧ shiftedView.Shows px py (-8) 4) ∧
    shiftedView.toOutput (-8) 4 = .ok (-1, -1) := by
  have hscale : shiftedView.scale ≠ 0 := by decide
  have hin : shiftedView.InWorld 2 4294967295 := by constructor <;> decide
  obtain ⟨hpixels, -, hpoints, -⟩ := pixels_part_world shiftedView hscale
  obtain ⟨x, y, hworld, hback, hsquare⟩ := hpixels 2 4294967295 hin
  have hfirst : shiftedView.toWorld 2 4294967295 = .ok (-1, 12884901890) := rfl
  obtain ⟨rfl, rfl⟩ := Prod.mk.inj (Except.ok.inj (hfirst.symm.trans hworld))
  exact ⟨hscale, hin, hfirst, hback, hsquare _ _ (by decide) (by decide),
    hpoints _ _ (by decide) (by decide), rfl⟩

end Viewport

end WorldMap
