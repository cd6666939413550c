import WorldMap.Geometry.Viewport
import WorldMap.Proofs.Words
/-!
# What a viewport computes

The checked operations of a viewport by their exact results: none of them fails, and none of the words
that keep the results loses anything, as long as the world points on a visible side stay below two to
the power 31.
-/

namespace WorldMap

namespace Viewport

variable {v : Viewport} {width height scale size : UInt32} {offset : Int32} {w wx wy d n s : Int}

theorem centredOffset_eq (hside : size.toNat * scale.toNat ≤ 2147483647) :
    ∃ o, centredOffset size scale = .ok o ∧
      o.toInt = -((size.toNat * scale.toNat : Nat) / 2 : Int) := by
  have hextent : (size.toNat : Int) * scale.toNat ∈ IntRange.signed64 := by
    rw [IntRange.mem_signed64, ← Int.natCast_mul]
    omega
  refine ⟨_, by rw [centredOffset, IntRange.mul_of_mem hextent]; rfl, ?_⟩
  rw [← Int.natCast_mul]
  refine IntRange.toInt_ofInt (IntRange.mem_signed32.2 ?_)
  omega

theorem centred_eq (hscale : scale ≠ 0) (hwidth : width.toNat * scale.toNat ≤ 2147483647)
    (hheight : height.toNat * scale.toNat ≤ 2147483647) :
    ∃ x y, centred width height scale = .ok ⟨width, height, scale, x, y⟩ ∧
      x.toInt = -((width.toNat * scale.toNat : Nat) / 2 : Int) ∧
      y.toInt = -((height.toNat * scale.toNat : Nat) / 2 : Int) := by
  obtain ⟨x, hx, hx'⟩ := centredOffset_eq hwidth
  obtain ⟨y, hy, hy'⟩ := centredOffset_eq hheight
  refine ⟨x, y, ?_, hx', hy'⟩
  simp only [centred, if_neg hscale, hx, hy]
  rfl

theorem worldArea_eq (hwidth : v.width.toNat * v.scale.toNat ≤ 2147483647)
    (hheight : v.height.toNat * v.scale.toNat ≤ 2147483647) :
    ∃ sideX sideY, v.worldArea = .ok ⟨v.offsetX, v.offsetY, sideX, sideY⟩ ∧
      sideX.toNat = v.width.toNat * v.scale.toNat ∧
      sideY.toNat = v.height.toNat * v.scale.toNat := by
  have hmemX : (v.width.toNat : Int) * v.scale.toNat ∈ IntRange.unsigned32 := by
    rw [IntRange.mem_unsigned32, ← Int.natCast_mul]
    omega
  have hmemY : (v.height.toNat : Int) * v.scale.toNat ∈ IntRange.unsigned32 := by
    rw [IntRange.mem_unsigned32, ← Int.natCast_mul]
    omega
  refine ⟨_, _, by rw [worldArea, IntRange.mul_of_mem hmemX, IntRange.mul_of_mem hmemY]; rfl, ?_, ?_⟩
  · have hcast := IntRange.toNat_ofNat_toNat hmemX
    exact_mod_cast hcast
  · have hcast := IntRange.toNat_ofNat_toNat hmemY
    exact_mod_cast hcast

theorem outputCoordinate_eq (hscale : scale ≠ 0) (hdistance : w - offset.toInt ∈ IntRange.signed64) :
    outputCoordinate w scale offset = .ok ((w - offset.toInt) / scale.toNat) := by
  rw [outputCoordinate, IntRange.sub_of_mem hdistance]
  exact if_neg hscale

theorem toOutput_eq (hscale : v.scale ≠ 0) (hx : wx - v.offsetX.toInt ∈ IntRange.signed64)
    (hy : wy - v.offsetY.toInt ∈ IntRange.signed64) :
    v.toOutput wx wy = .ok
      ((wx - v.offsetX.toInt) / v.scale.toNat, (wy - v.offsetY.toInt) / v.scale.toNat) := by
  rw [toOutput, outputCoordinate_eq hscale hx, outputCoordinate_eq hscale hy]
  rfl

theorem toOutput_origin (hscale : v.scale ≠ 0) :
    v.toOutput 0 0 = .ok
      (-v.offsetX.toInt / v.scale.toNat, -v.offsetY.toInt / v.scale.toNat) := by
  have hmem (o : Int32) : 0 - o.toInt ∈ IntRange.signed64 := by
    have ho := IntRange.mem_signed32.1 (IntRange.toInt_mem o)
    rw [IntRange.mem_signed64]
    omega
  rw [toOutput_eq hscale (hmem _) (hmem _), Int.zero_sub, Int.zero_sub]

theorem worldCoordinate_of_mem {p : UInt32} (hproduct : (p.toNat : Int) * scale.toNat ∈ IntRange.signed64)
    (hsum : (p.toNat : Int) * scale.toNat + offset.toInt ∈ IntRange.signed64) :
    worldCoordinate p scale offset = .ok ((p.toNat : Int) * scale.toNat + offset.toInt) := by
  rw [worldCoordinate, IntRange.mul_of_mem hproduct]
  exact IntRange.add_of_mem hsum

theorem worldCoordinate_eq {p : UInt32} (hsteps : p.toNat * scale.toNat ≤ 2147483647) :
    worldCoordinate p scale offset = .ok ((p.toNat : Int) * scale.toNat + offset.toInt) := by
  have hoffset := IntRange.mem_signed32.1 (IntRange.toInt_mem offset)
  apply worldCoordinate_of_mem
  · rw [IntRange.mem_signed64, ← Int.natCast_mul]
    omega
  · rw [IntRange.mem_signed64, ← Int.natCast_mul]
    omega

theorem toWorld_eq {px py : UInt32} (hx : px.toNat * v.scale.toNat ≤ 2147483647)
    (hy : py.toNat * v.scale.toNat ≤ 2147483647) :
    v.toWorld px py = .ok
      (px.toNat * v.scale.toNat + v.offsetX.toInt, py.toNat * v.scale.toNat + v.offsetY.toInt) := by
  rw [toWorld, worldCoordinate_eq hx, worldCoordinate_eq hy]
  rfl

/-- A distance falls on one of `n` pixels if it is one of their world points. -/
theorem pixel_mem_iff (hs : 0 < s) : (0 ≤ d / s ∧ d / s < n) ↔ 0 ≤ d ∧ d < n * s := by
  rw [Int.le_ediv_iff_mul_le hs, Int.zero_mul, Int.ediv_lt_iff_lt_mul hs]

end Viewport

end WorldMap
