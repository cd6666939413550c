import Mathlib.Data.List.Nodup
import WorldMap.Geometry.Grid
import WorldMap.Proofs.Words
/-!
# The tiles of a grid

`Grid.tiles` lists every tile that the grid contains, and lists it once. The tile in place `k` is that of
column `k % width` in row `k / width`.
-/

namespace WorldMap

/-- Rows laid end to end: the value in place `k` is that of column `k % width` in row `k / width`. -/
theorem rows_eq_map_range {α : Type} (f : Nat → Nat → α) (width depth : Nat) :
    ((List.range depth).flatMap fun j => (List.range width).map fun i => f i j)
      = (List.range (width * depth)).map fun k => f (k % width) (k / width) := by
  induction depth with
  | zero => rfl
  | succ depth ih =>
    have hrow : (List.range width).map (fun i => f i depth)
        = (List.range width).map
            ((fun k => f (k % width) (k / width)) ∘ (width * depth + ·)) := by
      refine List.map_congr_left fun i hi => ?_
      have hi := List.mem_range.1 hi
      rw [Function.comp_apply, Nat.mul_add_mod, Nat.mod_eq_of_lt hi,
        Nat.mul_add_div (Nat.zero_lt_of_lt hi), Nat.div_eq_of_lt hi, Nat.add_zero]
    rw [List.range_succ, List.flatMap_append, ih, List.flatMap_singleton, hrow, Nat.mul_succ,
      List.range_add, List.map_append, List.map_map]

/-- A tile is its column and row as integers. -/
theorem Tile.eq_iff {t u : Tile} : t = u ↔ t.x.toInt = u.x.toInt ∧ t.z.toInt = u.z.toInt := by
  rcases t with ⟨x, z⟩
  rcases u with ⟨x', z'⟩
  rw [Tile.mk.injEq, Int32.toInt_inj, Int32.toInt_inj]

namespace Grid

variable {g : Grid} {t : Tile} {i j k : Nat}

/-! ### Sides and size -/

theorem maxX_eq (g : Grid) : g.maxX.toInt = g.minX.toInt + g.width := by
  have hle := g.minX_le
  rw [width]
  omega

theorem maxZ_eq (g : Grid) : g.maxZ.toInt = g.minZ.toInt + g.depth := by
  have hle := g.minZ_le
  rw [depth]
  omega

theorem width_le (g : Grid) : g.width ≤ 4294967295 := by
  have hmin := IntRange.mem_signed32.1 (IntRange.toInt_mem g.minX)
  have hmax := IntRange.mem_signed32.1 (IntRange.toInt_mem g.maxX)
  rw [width]
  omega

theorem depth_le (g : Grid) : g.depth ≤ 4294967295 := by
  have hmin := IntRange.mem_signed32.1 (IntRange.toInt_mem g.minZ)
  have hmax := IntRange.mem_signed32.1 (IntRange.toInt_mem g.maxZ)
  rw [depth]
  omega

/-- The number of tiles is a 64-bit word. -/
theorem size_mem (g : Grid) : (g.size : Int) ∈ IntRange.unsigned64 := by
  have hle : g.size ≤ 4294967295 * 4294967295 := Nat.mul_le_mul g.width_le g.depth_le
  rw [IntRange.mem_unsigned64]
  omega

/-! ### Tiles -/

theorem contains_iff : g.contains t = true ↔
    g.minX.toInt ≤ t.x.toInt ∧ t.x.toInt < g.maxX.toInt ∧
      g.minZ.toInt ≤ t.z.toInt ∧ t.z.toInt < g.maxZ.toInt := by
  simp [contains, and_assoc]

/-- The columns of a grid are 32-bit words. -/
theorem toInt_x_tileAt (hi : i < g.width) (j : Nat) : (g.tileAt i j).x.toInt = g.minX.toInt + i := by
  have hmin := IntRange.mem_signed32.1 (IntRange.toInt_mem g.minX)
  have hmax := IntRange.mem_signed32.1 (IntRange.toInt_mem g.maxX)
  rw [width] at hi
  exact IntRange.toInt_ofInt (IntRange.mem_signed32.2 (by omega))

theorem toInt_z_tileAt (i : Nat) (hj : j < g.depth) : (g.tileAt i j).z.toInt = g.minZ.toInt + j := by
  have hmin := IntRange.mem_signed32.1 (IntRange.toInt_mem g.minZ)
  have hmax := IntRange.mem_signed32.1 (IntRange.toInt_mem g.maxZ)
  rw [depth] at hj
  exact IntRange.toInt_ofInt (IntRange.mem_signed32.2 (by omega))

theorem tileAt_eq_iff (hi : i < g.width) (hj : j < g.depth) :
    g.tileAt i j = t ↔ g.minX.toInt + i = t.x.toInt ∧ g.minZ.toInt + j = t.z.toInt := by
  rw [Tile.eq_iff, toInt_x_tileAt hi, toInt_z_tileAt i hj]

theorem tiles_eq_map (g : Grid) :
    g.tiles = (List.range g.size).map fun k => g.tileAt (k % g.width) (k / g.width) :=
  rows_eq_map_range g.tileAt g.width g.depth

theorem getElem?_tiles (hk : k < g.size) :
    g.tiles[k]? = some (g.tileAt (k % g.width) (k / g.width)) := by
  rw [tiles_eq_map, List.getElem?_map, List.getElem?_range hk, Option.map_some]

theorem mem_tiles_iff : t ∈ g.tiles ↔ g.contains t = true := by
  have hwidth := g.minX_le
  have hdepth := g.minZ_le
  simp only [tiles, List.mem_flatMap, List.mem_map, List.mem_range, contains_iff]
  constructor
  · rintro ⟨j, hj, i, hi, htile⟩
    obtain ⟨hx, hz⟩ := (tileAt_eq_iff hi hj).1 htile
    simp only [width] at hi
    simp only [depth] at hj
    omega
  · rintro ⟨hminX, hmaxX, hminZ, hmaxZ⟩
    have hj : (t.z.toInt - g.minZ.toInt).toNat < g.depth := by
      rw [depth]
      omega
    have hi : (t.x.toInt - g.minX.toInt).toNat < g.width := by
      rw [width]
      omega
    exact ⟨_, hj, _, hi, (tileAt_eq_iff hi hj).2 (by omega)⟩

theorem nodup_tiles (g : Grid) : g.tiles.Nodup := by
  rw [tiles, List.nodup_flatMap]
  constructor
  · intro j hj
    refine List.Nodup.map_on (fun i hi i' hi' htile => ?_) List.nodup_range
    rw [List.mem_range] at hj hi hi'
    have hx := ((tileAt_eq_iff hi hj).1 htile).1
    rw [toInt_x_tileAt hi' j] at hx
    omega
  · refine List.nodup_range.imp_of_mem fun {j j'} hj hj' hne => ?_
    change List.Disjoint _ _
    rw [List.disjoint_left]
    intro t ht ht'
    simp only [List.mem_map, List.mem_range] at hj hj' ht ht'
    obtain ⟨i, hi, htile⟩ := ht
    obtain ⟨i', hi', htile'⟩ := ht'
    have hz := ((tileAt_eq_iff hi hj).1 htile).2
    have hz' := ((tileAt_eq_iff hi' hj').1 htile').2
    exact hne (by omega)

theorem count_tiles (g : Grid) (t : Tile) :
    g.tiles.count t = if g.contains t then 1 else 0 := by
  rw [g.nodup_tiles.count]
  simp only [mem_tiles_iff]

end Grid

end WorldMap
