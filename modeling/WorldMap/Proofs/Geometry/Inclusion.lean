import Mathlib.Data.Set.Basic
import WorldMap.Proofs.Geometry.Covering
/-!
# Areas inside of areas

Whether an area lies in another is told from the corners alone. That comes to the same as looking at
every point, because the first and the last point of an area are points of it, and an area that has both
begins and ends beyond them. An area without points has neither, and nothing is asked of what is around
it.

So containment of areas is inclusion of their sets of points (`containsArea_iff_subset`), and what holds
of inclusion holds of it. The corners are sums of 32-bit words, which a 64-bit word always has room for.
-/

namespace WorldMap

namespace Area

variable {a b : Area} {x y : Int}

/-! ### Points are pairs of 64-bit words -/

def points (a : Area) : Set (Int64 × Int64) := {p | a.contains p.1.toInt p.2.toInt = true}

theorem mem_points_iff {x y : Int64} :
    (x, y) ∈ a.points ↔ a.contains x.toInt y.toInt = true := Iff.rfl

theorem maxX_mem_signed64 (a : Area) : a.maxX ∈ IntRange.signed64 := by
  have hcorner := IntRange.mem_signed32.1 (IntRange.toInt_mem a.minX)
  have hwidth := IntRange.mem_unsigned32.1 (IntRange.toNat_mem a.width)
  rw [IntRange.mem_signed64, maxX]
  omega

theorem maxY_mem_signed64 (a : Area) : a.maxY ∈ IntRange.signed64 := by
  have hcorner := IntRange.mem_signed32.1 (IntRange.toInt_mem a.minY)
  have hheight := IntRange.mem_unsigned32.1 (IntRange.toNat_mem a.height)
  rw [IntRange.mem_signed64, maxY]
  omega

/-- No point of an area is lost for want of a 64-bit word. -/
theorem toInt_ofInt_of_contains (h : a.contains x y = true) :
    (Int64.ofInt x).toInt = x ∧ (Int64.ofInt y).toInt = y := by
  obtain ⟨hleft, hright, htop, hbottom⟩ := contains_iff.1 h
  have hminX := IntRange.mem_signed32.1 (IntRange.toInt_mem a.minX)
  have hminY := IntRange.mem_signed32.1 (IntRange.toInt_mem a.minY)
  have hmaxX := IntRange.mem_signed64.1 a.maxX_mem_signed64
  have hmaxY := IntRange.mem_signed64.1 a.maxY_mem_signed64
  exact ⟨Int64.toInt_ofInt_of_le (by omega) (by omega),
    Int64.toInt_ofInt_of_le (by omega) (by omega)⟩

theorem mem_points_of_contains (h : a.contains x y = true) :
    (Int64.ofInt x, Int64.ofInt y) ∈ a.points := by
  obtain ⟨hx, hy⟩ := toInt_ofInt_of_contains h
  rwa [mem_points_iff, hx, hy]

theorem contains_of_subset (hsubset : b.points ⊆ a.points) (h : b.contains x y = true) :
    a.contains x y = true := by
  obtain ⟨hx, hy⟩ := toInt_ofInt_of_contains h
  have hmem := hsubset (mem_points_of_contains h)
  rwa [mem_points_iff, hx, hy] at hmem

/-! ### First and last point -/

theorem contains_first (h : a.isEmpty = false) : a.contains a.minX.toInt a.minY.toInt = true :=
  contains_iff.2 ⟨Int.le_refl _, Grid.minX_lt_maxX h, Int.le_refl _, Grid.minY_lt_maxY h⟩

theorem contains_last (h : a.isEmpty = false) : a.contains (a.maxX - 1) (a.maxY - 1) = true := by
  have hx := Grid.minX_lt_maxX h
  have hy := Grid.minY_lt_maxY h
  exact contains_iff.2 (by omega)

theorem isEmpty_iff : a.isEmpty = true ↔ a.width = 0 ∨ a.height = 0 := by
  simp [isEmpty]

theorem contains_of_isEmpty (h : a.isEmpty = true) : a.contains x y = false := by
  rw [Bool.eq_false_iff, ne_eq, contains_iff, maxX, maxY]
  rcases isEmpty_iff.1 h with hwidth | hheight
  · rw [hwidth, UInt32.toNat_zero]
    omega
  · rw [hheight, UInt32.toNat_zero]
    omega

/-- The areas without points are those that lack a side. -/
theorem points_eq_empty_iff : a.points = ∅ ↔ a.isEmpty = true := by
  constructor
  · intro hpoints
    by_contra hempty
    have hfirst := mem_points_of_contains (contains_first (Bool.eq_false_iff.2 hempty))
    rw [hpoints] at hfirst
    exact hfirst
  · intro hempty
    refine Set.eq_empty_of_forall_notMem fun p hp => ?_
    exact Bool.false_ne_true ((contains_of_isEmpty hempty).symm.trans hp)

/-! ### Corners and points -/

theorem containsArea_iff (h : b.isEmpty = false) : a.containsArea b = true ↔
    a.minX.toInt ≤ b.minX.toInt ∧ a.minY.toInt ≤ b.minY.toInt ∧ b.maxX ≤ a.maxX ∧ b.maxY ≤ a.maxY := by
  simp [containsArea, h, and_assoc]

theorem containsArea_of_isEmpty (h : b.isEmpty = true) : a.containsArea b = true := by
  rw [containsArea, h, Bool.true_or]

theorem containsArea_iff_subset : a.containsArea b = true ↔ b.points ⊆ a.points := by
  cases hempty : b.isEmpty with
  | true =>
    rw [points_eq_empty_iff.2 hempty]
    exact iff_of_true (containsArea_of_isEmpty hempty) (Set.empty_subset _)
  | false =>
    rw [containsArea_iff hempty]
    constructor
    · rintro ⟨hleft, htop, hright, hbottom⟩ p hp
      obtain ⟨hx, hx', hy, hy'⟩ := contains_iff.1 hp
      exact contains_iff.2 (by omega)
    · intro hsubset
      obtain ⟨hleft, -, htop, -⟩ :=
        contains_iff.1 (contains_of_subset hsubset (contains_first hempty))
      obtain ⟨-, hright, -, hbottom⟩ :=
        contains_iff.1 (contains_of_subset hsubset (contains_last hempty))
      exact ⟨hleft, htop, by omega, by omega⟩

/-- An area contains another exactly if it has every point of the other. So every area contains itself,
an area in an area that lies in a third lies in the third, an area without points lies in every area, and
none without points contains one that has any. The corners are exact, as their sums fit in 64 bits. -/
theorem containment_is_of_points :
    (∀ a b : Area, a.containsArea b = true ↔
      ∀ x y : Int64, b.contains x.toInt y.toInt = true → a.contains x.toInt y.toInt = true) ∧
    (∀ a : Area, a.containsArea a = true) ∧
    (∀ a b c : Area, a.containsArea b = true → b.containsArea c = true → a.containsArea c = true) ∧
    (∀ a b : Area, b.isEmpty = true → a.containsArea b = true) ∧
    (∀ a b : Area, a.isEmpty = true → b.isEmpty = false → a.containsArea b = false) ∧
    ∀ a : Area, IntRange.signed64.add a.minX.toInt a.width.toNat = .ok a.maxX ∧
      IntRange.signed64.add a.minY.toInt a.height.toNat = .ok a.maxY := by
  refine ⟨fun a b => ?_, fun a => ?_, fun a b c hab hbc => ?_,
    fun a b => containsArea_of_isEmpty, fun a b ha hb => ?_, fun a => ?_⟩
  · rw [containsArea_iff_subset]
    exact ⟨fun h x y hp => h (a := (x, y)) hp, fun h p hp => h p.1 p.2 hp⟩
  · exact containsArea_iff_subset.2 Set.Subset.rfl
  · exact containsArea_iff_subset.2
      ((containsArea_iff_subset.1 hbc).trans (containsArea_iff_subset.1 hab))
  · rw [Bool.eq_false_iff, ne_eq, containsArea_iff_subset, points_eq_empty_iff.2 ha,
      Set.subset_empty_iff, points_eq_empty_iff, hb]
    exact Bool.false_ne_true
  · exact ⟨IntRange.add_of_mem a.maxX_mem_signed64, IntRange.add_of_mem a.maxY_mem_signed64⟩

/-- An area that reaches far beyond the 32-bit points, a strip along its right edge, and the last point
of the strip that is a 32-bit one. -/
private def farArea : Area := ⟨2147483640, -5, 4294967295, 4294967295⟩

private def strip : Area := ⟨2147483647, 0, 4294967288, 10⟩

private def dot : Area := ⟨2147483647, 9, 1, 1⟩

/-- As high as an area can be, and without points. -/
private def line : Area := ⟨2147483647, -2147483648, 0, 4294967295⟩

theorem containment_is_of_points_farAreas :
    farArea.containsArea strip = true ∧ strip.containsArea dot = true ∧
    farArea.containsArea dot = true ∧
    line.isEmpty = true ∧ dot.isEmpty = false ∧
    dot.containsArea line = true ∧ line.containsArea dot = false := by
  obtain ⟨-, -, htrans, hwithin, hwithout, -⟩ := containment_is_of_points
  have hstrip : farArea.containsArea strip = true := by decide
  have hdot : strip.containsArea dot = true := by decide
  have hline : line.isEmpty = true := by decide
  have hpoints : dot.isEmpty = false := by decide
  exact ⟨hstrip, hdot, htrans _ _ _ hstrip hdot, hline, hpoints, hwithin _ _ hline,
    hwithout _ _ hline hpoints⟩

end Area

end WorldMap
