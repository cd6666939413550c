import Mathlib.Data.List.ReduceOption
import WorldMap.Proofs.Geometry.Grid
/-!
# Visiting the tiles of a grid

A cursor gives out one tile a call. After `k` calls it stands in column `k % width` of row `k / width`
(`Cursor.Stands`), and a call in any such place gives the tile there and leads to the next place, or gives
nothing and leads nowhere if all tiles have been given out. The bounds of a grid are 32-bit words and the
cursor never passes them, so its steps stay in 32 bits also where a bound is the last word there is.

How many tiles are left is reckoned from two differences. These are taken in 32 bits too, and a grid may
be more than half as wide or deep as there are words, so here there are places where the reckoning
fails: those in which one of the two differences is no word (`Cursor.Stands.remaining_eq`).
-/

namespace WorldMap

/-- Rows come one after the other, and columns one after the other in each row. -/
def Tile.Precedes (t u : Tile) : Prop :=
  t.z.toInt < u.z.toInt ∨ t.z.toInt = u.z.toInt ∧ t.x.toInt < u.x.toInt

namespace Grid

variable {g : Grid} {k n : Nat}

theorem isEmpty_iff : g.isEmpty = true ↔ g.size = 0 := by
  rw [isEmpty, beq_iff_eq]

theorem column_lt (hk : k < g.size) : k % g.width < g.width :=
  Nat.mod_lt k (Nat.pos_of_mul_pos_right (Nat.zero_lt_of_lt hk))

theorem row_lt (hk : k < g.size) : k / g.width < g.depth :=
  Nat.div_lt_of_lt_mul hk

theorem toInt_x_tileAt_place (hk : k < g.size) :
    (g.tileAt (k % g.width) (k / g.width)).x.toInt = g.minX.toInt + (k % g.width : Nat) :=
  toInt_x_tileAt (column_lt hk) _

theorem toInt_z_tileAt_place (hk : k < g.size) :
    (g.tileAt (k % g.width) (k / g.width)).z.toInt = g.minZ.toInt + (k / g.width : Nat) :=
  toInt_z_tileAt _ (row_lt hk)

theorem map_getElem?_tiles_of_le (hk : g.size ≤ k) :
    (List.range' k n).map (g.tiles[·]?) = List.replicate n none := by
  refine List.eq_replicate_of_mem ?_ |>.trans (by rw [List.length_map, List.length_range'])
  simp only [List.mem_map, List.mem_range'_1]
  rintro t ⟨i, hi, rfl⟩
  rw [List.getElem?_eq_none_iff, length_tiles]
  omega

theorem length_reduceOption_tiles (k n : Nat) :
    ((List.range' k n).map (g.tiles[·]?)).reduceOption.length = min n (g.size - k) := by
  induction n generalizing k with
  | zero => rw [Nat.zero_min]; rfl
  | succ n ih =>
    rw [List.range'_succ, List.map_cons]
    by_cases hk : k < g.size
    · rw [getElem?_tiles hk, List.reduceOption_cons_of_some, List.length_cons, ih]
      omega
    · rw [List.getElem?_eq_none (by rw [length_tiles]; omega), List.reduceOption_cons_of_none, ih]
      omega

theorem pairwise_precedes_tiles (g : Grid) : g.tiles.Pairwise Tile.Precedes := by
  rw [tiles_eq_map, List.pairwise_map]
  refine List.pairwise_lt_range.imp_of_mem fun {k n} hk hn hlt => ?_
  rw [List.mem_range] at hk hn
  have hrow : k / g.width ≤ n / g.width := Nat.div_le_div_right (Nat.le_of_lt hlt)
  have hk' := Nat.div_add_mod k g.width
  have hn' := Nat.div_add_mod n g.width
  rw [Tile.Precedes, toInt_x_tileAt_place hk, toInt_x_tileAt_place hn, toInt_z_tileAt_place hk,
    toInt_z_tileAt_place hn]
  rcases Nat.lt_or_eq_of_le hrow with habove | hsame
  · left
    omega
  · right
    rw [hsame] at hk' ⊢
    omega

/-! ### Calls -/

namespace Cursor

variable {c : Cursor}

/-- A call for the next tile: what it gives, and the cursor that it leaves. -/
def call (c : Cursor) : Checked (Option Tile × Cursor) := do
  match ← c.step with
  | none => return (none, c)
  | some (t, c') => return (some t, c')

/-- What a number of calls give, one after the other, and the cursor that they leave. -/
def calls : Nat → Cursor → Checked (List (Option Tile) × Cursor)
  | 0, c => return ([], c)
  | n + 1, c => do
    let (given, c) ← c.call
    let (rest, c) ← calls n c
    return (given :: rest, c)

theorem calls_succ {c' c'' : Cursor} {given : Option Tile} {rest : List (Option Tile)}
    (hcall : c.call = .ok (given, c')) (hrest : c'.calls n = .ok (rest, c'')) :
    c.calls (n + 1) = .ok (given :: rest, c'') := by
  rw [calls, hcall]
  change (do
    let (rest, c) ← c'.calls n
    return (given :: rest, c)) = _
  rw [hrest]
  rfl

/-- A call within a row. -/
private theorem call_within (hdone : c.isDone = false) (hword : c.next.x.toInt + 1 ∈ IntRange.signed32)
    (hlt : c.next.x.toInt + 1 < c.grid.maxX.toInt) :
    c.call = .ok (some c.next, { c with next := ⟨Int32.ofInt (c.next.x.toInt + 1), c.next.z⟩ }) := by
  have hstep : c.step
      = .ok (some (c.next, { c with next := ⟨Int32.ofInt (c.next.x.toInt + 1), c.next.z⟩ })) := by
    rw [step, hdone, IntRange.add_of_mem hword]
    exact if_pos hlt
  rw [call, hstep]
  rfl

/-- A call at the end of a row. -/
private theorem call_at_end (hdone : c.isDone = false) (hword : c.next.x.toInt + 1 ∈ IntRange.signed32)
    (hlt : ¬ c.next.x.toInt + 1 < c.grid.maxX.toInt)
    (hword' : c.next.z.toInt + 1 ∈ IntRange.signed32) :
    c.call
      = .ok (some c.next, { c with next := ⟨c.grid.minX, Int32.ofInt (c.next.z.toInt + 1)⟩ }) := by
  have hstep : c.step
      = .ok (some (c.next, { c with next := ⟨c.grid.minX, Int32.ofInt (c.next.z.toInt + 1)⟩ })) := by
    rw [step, hdone, IntRange.add_of_mem hword, IntRange.add_of_mem hword']
    exact if_neg hlt
  rw [call, hstep]
  rfl

/-- The cursor of `g` stands in place `k`, row by row. The place behind the last one is the end. -/
structure Stands (g : Grid) (k : Nat) (c : Cursor) : Prop where
  grid_eq : c.grid = g
  le_size : k ≤ g.size
  x_eq : c.next.x.toInt = g.minX.toInt + (k % g.width : Nat)
  z_eq : c.next.z.toInt = g.minZ.toInt + (k / g.width : Nat)

namespace Stands

theorem cursor (g : Grid) : Stands g 0 g.cursor :=
  ⟨rfl, Nat.zero_le _, by simp [Grid.cursor], by simp [Grid.cursor]⟩

theorem isDone_iff (h : Stands g k c) : c.isDone = true ↔ k = g.size := by
  have hle := h.le_size
  have hmaxZ := g.maxZ_eq
  rw [isDone, Bool.or_eq_true, decide_eq_true_eq, h.grid_eq, h.z_eq, isEmpty_iff]
  by_cases hwidth : 0 < g.width
  · have hrows : g.depth ≤ k / g.width ↔ g.size ≤ k := by
      rw [Nat.le_div_iff_mul_le hwidth, Nat.mul_comm, size]
    omega
  · have hempty : g.size = 0 := by
      rw [size, Nat.eq_zero_of_not_pos hwidth, Nat.zero_mul]
    omega

theorem isDone_eq_false (h : Stands g k c) (hk : k < g.size) : c.isDone = false := by
  rw [Bool.eq_false_iff]
  intro hdone
  exact Nat.ne_of_lt hk (h.isDone_iff.1 hdone)

/-- The tile that the cursor is at. -/
theorem getElem?_tiles_eq (h : Stands g k c) (hk : k < g.size) : g.tiles[k]? = some c.next := by
  rw [getElem?_tiles hk, Option.some.injEq, Tile.eq_iff, toInt_x_tileAt_place hk,
    toInt_z_tileAt_place hk]
  exact ⟨h.x_eq.symm, h.z_eq.symm⟩

/-- There is a word to the right of the cursor and one below it: at the worst the excluded bound. -/
theorem next_mem (h : Stands g k c) (hk : k < g.size) :
    c.next.x.toInt + 1 ∈ IntRange.signed32 ∧ c.next.z.toInt + 1 ∈ IntRange.signed32 := by
  have hcolumn := column_lt hk
  have hrow := row_lt hk
  have hmaxX := g.maxX_eq
  have hmaxZ := g.maxZ_eq
  have hminX32 := IntRange.mem_signed32.1 (IntRange.toInt_mem g.minX)
  have hmaxX32 := IntRange.mem_signed32.1 (IntRange.toInt_mem g.maxX)
  have hminZ32 := IntRange.mem_signed32.1 (IntRange.toInt_mem g.minZ)
  have hmaxZ32 := IntRange.mem_signed32.1 (IntRange.toInt_mem g.maxZ)
  rw [h.x_eq, h.z_eq, IntRange.mem_signed32, IntRange.mem_signed32]
  generalize k % g.width = i at hcolumn ⊢
  generalize k / g.width = j at hrow ⊢
  omega

/-- A call gives the tile in the place where the cursor stands, and leads to the next place. -/
theorem exists_call (h : Stands g k c) (hk : k < g.size) :
    ∃ c', c.call = .ok (g.tiles[k]?, c') ∧ Stands g (k + 1) c' := by
  obtain ⟨hright, hbelow⟩ := h.next_mem hk
  have hplace := Nat.div_add_mod k g.width
  have hcolumn := column_lt hk
  have hmaxX : c.grid.maxX.toInt = g.minX.toInt + g.width := by rw [h.grid_eq, g.maxX_eq]
  have hend : c.next.x.toInt + 1 < c.grid.maxX.toInt ↔ k % g.width + 1 < g.width := by
    rw [h.x_eq, hmaxX]
    omega
  rw [h.getElem?_tiles_eq hk]
  by_cases hwithin : k % g.width + 1 < g.width
  · have hnext : k + 1 = g.width * (k / g.width) + (k % g.width + 1) := by omega
    refine ⟨_, call_within (h.isDone_eq_false hk) hright (hend.2 hwithin), h.grid_eq, hk, ?_, ?_⟩
    · rw [hnext, Nat.mul_add_mod, Nat.mod_eq_of_lt hwithin, IntRange.toInt_ofInt hright, h.x_eq,
        Int.add_assoc, Int.natCast_add, Int.natCast_one]
    · rw [hnext, Nat.mul_add_div (by omega), Nat.div_eq_of_lt hwithin, Nat.add_zero]
      exact h.z_eq
  · have hnext : k + 1 = g.width * (k / g.width + 1) := by
      rw [Nat.mul_succ]
      omega
    refine ⟨_, call_at_end (h.isDone_eq_false hk) hright (mt hend.1 hwithin) hbelow, h.grid_eq, hk,
      ?_, ?_⟩
    · rw [hnext, Nat.mul_mod_right, h.grid_eq, Int.natCast_zero, Int.add_zero]
    · rw [hnext, Nat.mul_div_cancel_left _ (by omega), IntRange.toInt_ofInt hbelow, h.z_eq,
        Int.add_assoc, Int.natCast_add, Int.natCast_one]

/-- At the end a call gives nothing and leads nowhere. -/
theorem call_of_end (h : Stands g g.size c) : c.call = .ok (none, c) := by
  have hstep : c.step = .ok none := if_pos (h.isDone_iff.2 rfl)
  rw [call, hstep]
  rfl

theorem calls_of_end (h : Stands g g.size c) (n : Nat) :
    c.calls n = .ok (List.replicate n none, c) := by
  induction n with
  | zero => rfl
  | succ n ih => exact calls_succ h.call_of_end ih

/-- Calls give the tiles from the place on where the cursor stands, and nothing when there are no more. -/
theorem exists_calls (h : Stands g k c) (n : Nat) :
    ∃ c', c.calls n = .ok ((List.range' k n).map (g.tiles[·]?), c') ∧
      Stands g (min (k + n) g.size) c' := by
  induction n generalizing k c with
  | zero =>
    refine ⟨c, rfl, ?_⟩
    rwa [Nat.add_zero, Nat.min_eq_left h.le_size]
  | succ n ih =>
    rcases Nat.lt_or_eq_of_le h.le_size with hlt | rfl
    · obtain ⟨c', hcall, h'⟩ := h.exists_call hlt
      obtain ⟨c'', hrest, h''⟩ := ih h'
      rw [List.range'_succ, List.map_cons]
      refine ⟨c'', calls_succ hcall hrest, ?_⟩
      rwa [Nat.add_right_comm, Nat.add_assoc] at h''
    · refine ⟨c, ?_, ?_⟩
      · rw [h.calls_of_end, map_getElem?_tiles_of_le (Nat.le_refl _)]
      · rwa [Nat.min_eq_right (Nat.le_add_right _ _)]

/-! ### Tiles that are left -/

theorem remaining_of_end (h : Stands g g.size c) : c.remaining = .ok 0 :=
  if_pos (h.isDone_iff.2 rfl)

theorem rows_eq (h : Stands g k c) :
    g.maxZ.toInt - c.next.z.toInt = g.depth - (k / g.width : Nat) := by
  rw [g.maxZ_eq, h.z_eq, Int.add_sub_add_left]

theorem columns_eq (h : Stands g k c) : c.next.x.toInt - g.minX.toInt = (k % g.width : Nat) := by
  rw [h.x_eq]
  omega

/-- Whole rows, less the columns that are done, are what is left. -/
theorem rows_sub_columns (h : Stands g k c) :
    (g.maxZ.toInt - c.next.z.toInt) * g.width - (c.next.x.toInt - g.minX.toInt) = g.size - k := by
  have hplace := Nat.div_add_mod k g.width
  rw [h.rows_eq, h.columns_eq, Int.sub_mul, Int.mul_comm, Int.mul_comm _ (g.width : Int),
    ← Int.natCast_mul, ← Int.natCast_mul, ← size]
  omega

/-- What is left is told exactly where both differences are words, and nowhere else. -/
theorem remaining_eq (h : Stands g k c) (hk : k < g.size) :
    c.remaining
      = if g.maxZ.toInt - c.next.z.toInt ∈ IntRange.signed32 ∧
          c.next.x.toInt - g.minX.toInt ∈ IntRange.signed32 then .ok (g.size - k)
        else .error .subtraction := by
  have hleft := h.rows_sub_columns
  have hsize := IntRange.mem_unsigned64.1 g.size_mem
  have hcolumns := h.columns_eq
  have hplace := Nat.mod_le k g.width
  have hall : (g.maxZ.toInt - c.next.z.toInt) * g.width ∈ IntRange.unsigned64 := by
    rw [IntRange.mem_unsigned64]
    omega
  rw [remaining, if_neg (by simp [h.isDone_eq_false hk]), h.grid_eq]
  by_cases hrows : g.maxZ.toInt - c.next.z.toInt ∈ IntRange.signed32
  · by_cases hdone : c.next.x.toInt - g.minX.toInt ∈ IntRange.signed32
    · have hrest : (g.maxZ.toInt - c.next.z.toInt) * g.width - (c.next.x.toInt - g.minX.toInt)
          ∈ IntRange.unsigned64 := by
        rw [hleft, IntRange.mem_unsigned64]
        omega
      rw [if_pos ⟨hrows, hdone⟩, IntRange.sub_of_mem hrows, IntRange.sub_of_mem hdone]
      -- what is left to compute once both differences are known
      change (do
        let all ← IntRange.unsigned64.mul (g.maxZ.toInt - c.next.z.toInt) g.width
        let left ← IntRange.unsigned64.sub all (c.next.x.toInt - g.minX.toInt)
        return left.toNat) = _
      rw [IntRange.mul_of_mem hall]
      change (do
        let left ← IntRange.unsigned64.sub ((g.maxZ.toInt - c.next.z.toInt) * g.width)
          (c.next.x.toInt - g.minX.toInt)
        return left.toNat) = _
      rw [IntRange.sub_of_mem hrest, hleft]
      exact congrArg Except.ok (by omega)
    · rw [if_neg fun hboth => hdone hboth.2, IntRange.sub_of_mem hrows,
        IntRange.sub_of_not_mem hdone]
      rfl
  · rw [if_neg fun hboth => hrows hboth.1, IntRange.sub_of_not_mem hrows]
    rfl

/-- So many tiles as are left are given by the calls that follow. -/
theorem exists_calls_left (h : Stands g k c) (n : Nat) :
    ∃ given c', c.calls n = .ok (given, c') ∧ given.reduceOption.length = min n (g.size - k) := by
  obtain ⟨c', hcalls, -⟩ := h.exists_calls n
  exact ⟨_, c', hcalls, length_reduceOption_tiles k n⟩

end Stands

end Cursor

/-! ### Enumeration -/

/-- Calling for the next tile again and again enumerates a grid. No call overflows, and neither does the
number of tiles; the calls give the tiles in their places, and nothing from the last one on. The tile in
place `k` is in column `k % width` of row `k / width`, so that rows ascend and columns ascend in a row,
and every tile of the grid comes exactly once and no other at all. -/
theorem cursor_enumerates (g : Grid) :
    IntRange.unsigned64.mul g.width g.depth = .ok (g.size : Int) ∧
    (∀ n, ∃ c, g.cursor.calls n = .ok ((List.range n).map (g.tiles[·]?), c)) ∧
    g.tiles.length = g.size ∧
    (∀ k < g.size, ∃ t, g.tiles[k]? = some t ∧
      t.x.toInt = g.minX.toInt + (k % g.width : Nat) ∧
      t.z.toInt = g.minZ.toInt + (k / g.width : Nat)) ∧
    g.tiles.Pairwise Tile.Precedes ∧
    ∀ t, g.tiles.count t = if g.contains t then 1 else 0 := by
  have hsize : (g.size : Int) = g.width * g.depth := Int.natCast_mul g.width g.depth
  refine ⟨?_, fun n => ?_, g.length_tiles, fun k hk => ⟨_, getElem?_tiles hk,
    toInt_x_tileAt_place hk, toInt_z_tileAt_place hk⟩, g.pairwise_precedes_tiles, g.count_tiles⟩
  · rw [IntRange.mul_of_mem (hsize ▸ g.size_mem), hsize]
  · obtain ⟨c, hcalls, -⟩ := (Cursor.Stands.cursor g).exists_calls n
    exact ⟨c, List.range_eq_range' ▸ hcalls⟩

/-- All tiles there are but those of the last column and row. -/
private def wideGrid : Grid := .ofCorners (-2147483648) (-2147483648) 2147483647 2147483647

/-- Two tiles before the last column and row there are. -/
private def cornerGrid : Grid := .ofCorners 2147483645 2147483646 2147483647 2147483647

theorem cursor_enumerates_wideGrid :
    (∃ t, wideGrid.tiles[18446744065119617024]? = some t ∧
      t.x.toInt = 2147483646 ∧ t.z.toInt = 2147483646) ∧
    ∃ c, cornerGrid.cursor.calls 4
      = .ok ([some ⟨2147483645, 2147483646⟩, some ⟨2147483646, 2147483646⟩, none, none], c) := by
  obtain ⟨-, -, -, hplace, -⟩ := cursor_enumerates wideGrid
  obtain ⟨-, hcalls, -⟩ := cursor_enumerates cornerGrid
  obtain ⟨t, htile, hx, hz⟩ := hplace 18446744065119617024 (by decide)
  exact ⟨⟨t, htile, hx.trans (by decide), hz.trans (by decide)⟩, hcalls 4⟩

/-- What a cursor tells to be left is exact wherever it is told. After any number of calls it is
nothing if there are no tiles or all have been given out. Otherwise, with the rows from the cursor on and
the columns before it, it is the size of the grid less the calls, which is how many tiles the following
calls give, if the two are words, and a subtraction that overflows if one of them is not. -/
theorem cursor_tells_left (g : Grid) (k : Nat) :
    ∃ given c, g.cursor.calls k = .ok (given, c) ∧
      (g.isEmpty = true ∨ g.size ≤ k → c.remaining = .ok 0) ∧
      (k < g.size →
        let rows := g.maxZ.toInt - c.next.z.toInt
        let columns := c.next.x.toInt - g.minX.toInt
        rows = g.depth - (k / g.width : Nat) ∧ columns = (k % g.width : Nat) ∧
        rows * g.width - columns = g.size - k ∧
        (rows ∈ IntRange.signed32 → columns ∈ IntRange.signed32 →
          c.remaining = .ok (g.size - k)) ∧
        (¬ (rows ∈ IntRange.signed32 ∧ columns ∈ IntRange.signed32) →
          c.remaining = .error .subtraction)) ∧
      ∀ n, ∃ rest c', c.calls n = .ok (rest, c') ∧
        rest.reduceOption.length = min n (g.size - k) := by
  obtain ⟨c, hcalls, hstands⟩ := (Cursor.Stands.cursor g).exists_calls k
  rw [Nat.zero_add] at hstands
  refine ⟨_, c, hcalls, fun hover => ?_, fun hk => ?_, fun n => ?_⟩
  · have hle : g.size ≤ k := by
      rw [isEmpty_iff] at hover
      omega
    rw [Nat.min_eq_right hle] at hstands
    exact hstands.remaining_of_end
  · rw [Nat.min_eq_left (Nat.le_of_lt hk)] at hstands
    refine ⟨hstands.rows_eq, hstands.columns_eq, hstands.rows_sub_columns,
      fun hrows hcolumns => ?_, fun hnot => ?_⟩
    · rw [hstands.remaining_eq hk, if_pos ⟨hrows, hcolumns⟩]
    · rw [hstands.remaining_eq hk, if_neg hnot]
  · obtain ⟨rest, c', hrest, hlength⟩ := hstands.exists_calls_left n
    exact ⟨rest, c', hrest, by omega⟩

/-- One column of all rows there are but the last. -/
private def tallGrid : Grid := .ofCorners 0 (-2147483648) 1 2147483647

/-- In a tall grid nothing can be told at first, and everything from the middle on. -/
theorem cursor_tells_left_tallGrid :
    (∃ given c, tallGrid.cursor.calls 0 = .ok (given, c) ∧ c.remaining = .error .subtraction) ∧
    (∃ given c, tallGrid.cursor.calls 2147483648 = .ok (given, c) ∧
      c.remaining = .ok 2147483647) ∧
    ∃ given c, tallGrid.cursor.calls 4294967295 = .ok (given, c) ∧ c.remaining = .ok 0 := by
  obtain ⟨given, c, hcalls, -, hleft, -⟩ := cursor_tells_left tallGrid 0
  obtain ⟨given', c', hcalls', -, hleft', -⟩ := cursor_tells_left tallGrid 2147483648
  obtain ⟨given'', c'', hcalls'', hover, -, -⟩ := cursor_tells_left tallGrid 4294967295
  obtain ⟨hrows, -, -, -, hfails⟩ := hleft (by decide)
  obtain ⟨hrows', hcolumns', -, htells, -⟩ := hleft' (by decide)
  refine ⟨⟨given, c, hcalls, hfails fun hboth => ?_⟩, ⟨given', c', hcalls', htells ?_ ?_⟩,
    given'', c'', hcalls'', hover (.inr (by decide))⟩
  · exact absurd (hrows ▸ hboth.1) (by decide)
  · rw [hrows']
    decide
  · rw [hcolumns']
    decide

end Grid

end WorldMap
