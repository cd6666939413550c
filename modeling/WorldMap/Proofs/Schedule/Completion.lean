import WorldMap.Proofs.Geometry.Grid
import WorldMap.Proofs.Schedule.Invariant
/-!
# What a collection that came to its end holds

The collector is complete when it has taken one result for each tile of the grid, and it takes only
what a task has sent. So by then every task has been through all its phases, the places of the begun
computations are those of the grid, each once, and the tiles collected are the grid's own tiles with
what `compute` says of them: however the steps came to be mixed, the results are those of a map.
-/

namespace WorldMap

variable {α : Type} {compute : Tile → Attempt TileError α}

theorem TileResult.image_ofAttempt_eq_some_iff {t : Tile} {a : Attempt TileError α} {image : α} :
    (TileResult.ofAttempt t a).image = some image ↔ a = .ok image := by
  cases a <;> simp [ofAttempt, Except.toOption]

theorem TileResult.image_ofAttempt_eq_none_iff {t : Tile} {a : Attempt TileError α} :
    (TileResult.ofAttempt t a).image = none ↔ ∃ f, a = .error f := by
  cases a <;> simp [ofAttempt, Except.toOption]

/-- The tiles of all places are the tiles of the batch. -/
theorem Batch.map_tile_range (b : Batch α) : (List.range b.size).map b.tile = b.tiles := by
  apply List.ext_getElem (by simp [length_tiles])
  intro i hi _
  simp [Batch.size] at hi
  simp [tiles, tile, hi]

namespace Dispatch.Sound

variable {g : Grid} {s : Dispatch α}

/-- By then the computation of every place was begun, and of no place twice. -/
theorem entered_perm_of_complete (h : s.Sound compute g)
    (hcomplete : s.collector.stage = .complete) : s.entered.Perm (List.range s.batch.size) := by
  rw [List.perm_ext_iff_of_nodup h.tasks.entered_nodup List.nodup_range]
  intro i
  rw [h.tasks.mem_entered, List.mem_range, Batch.size]
  constructor
  · rintro ⟨task, htask, -⟩
    exact (Array.getElem?_eq_some_iff.1 htask).1
  · intro hi
    have htask := Array.getElem?_eq_getElem hi
    obtain ⟨r, hr⟩ := h.sent_of_complete hcomplete htask
    exact ⟨_, htask, by rw [hr]; rfl⟩

/-- The begun computations by their tiles. -/
theorem begun_tiles_perm_of_complete (h : s.Sound compute g)
    (hcomplete : s.collector.stage = .complete) : (s.entered.map s.batch.tile).Perm g.tiles := by
  have hperm := (h.entered_perm_of_complete hcomplete).map s.batch.tile
  rwa [Batch.map_tile_range, h.tasks.tiles] at hperm

/-- The collector holds what all tiles of the grid come to. -/
theorem holds_of_complete (h : s.Sound compute g) (hcomplete : s.collector.stage = .complete) :
    s.collector.Holds compute g.tiles := by
  have hholds := h.collected.holds
  rwa [h.collected.complete hcomplete, ← g.length_tiles, List.take_length] at hholds

end Dispatch.Sound

/-- A collection that ends well is a map over the tiles of the grid: each was computed once and no
other was, they are listed row by row with the images that came out, those without an image are
counted as failed, and each of them was warned about in its turn. -/
theorem Dispatch.collected_eq_map (compute : Tile → Attempt TileError α) (g : Grid)
    (listened : Bool) (moves : List Move) {results : List (TileResult α)} {stats : Stats}
    (hanswer : ((start g listened).run compute moves).collector.answer? =
      some (.ok (results, stats))) :
    let s := (start g listened).run compute moves
    (∀ t, (s.entered.map s.batch.tile).count t = if g.contains t then 1 else 0) ∧
    results.map (·.tile) = g.tiles ∧
    (∀ r ∈ results, (∀ image, r.image = some image ↔ compute r.tile = .ok image) ∧
      (r.image = none ↔ ∃ f, compute r.tile = .error f)) ∧
    stats.submitted = g.size ∧ stats.rendered + stats.failed = g.size ∧
    stats.rendered = results.countP (·.image.isSome) ∧
    s.collector.warnings.toList = g.tiles.filterMap fun t => (compute t).warning? t := by
  intro s
  have hsound : s.Sound compute g := run_sound compute g listened moves
  obtain ⟨hcomplete, rfl, rfl⟩ := Collector.answer?_eq_ok_iff.1 hanswer
  have hholds := hsound.holds_of_complete hcomplete
  refine ⟨fun t => ?_, ?_, fun r hr => ?_, hsound.collected.submitted, ?_, hholds.rendered,
    hholds.warnings⟩
  · rw [(hsound.begun_tiles_perm_of_complete hcomplete).count_eq t, Grid.count_tiles]
  · rw [hholds.results, List.map_map]
    exact List.map_id' g.tiles
  · rw [hholds.results, List.mem_map] at hr
    obtain ⟨t, -, rfl⟩ := hr
    exact ⟨fun image => TileResult.image_ofAttempt_eq_some_iff,
      TileResult.image_ofAttempt_eq_none_iff⟩
  · rw [hholds.accounted, g.length_tiles]

/-- Three tiles in a row: one has an image, one fails and one breaks off. -/
private def sampleRow : Grid := .ofCorners 0 0 3 1

private def sampleOutcome (t : Tile) : Attempt TileError Nat :=
  if t.x = 0 then .ok 7
  else if t.x = 1 then .error (.error (.allocation 1 1))
  else .error (.broke (.saying "no data"))

/-- The last tile is done before the first has begun, and the collector looks in between. -/
private def sampleMoves : List Move :=
  [.check 2, .collect, .collect, .collect, .collect, .finish 2, .count 2, .check 0, .check 1,
    .finish 0, .finish 1, .count 0, .report 0 false, .report 2 true, .send 2, .count 1,
    .report 1 true, .send 0, .collect, .collect, .collect, .collect, .send 1] ++
  List.replicate 14 .collect

private def sampleResults : List (TileResult Nat) :=
  [⟨⟨0, 0⟩, some 7⟩, ⟨⟨1, 0⟩, none⟩, ⟨⟨2, 0⟩, none⟩]

set_option maxRecDepth 4096 in
private theorem answer?_sampleMoves :
    ((Dispatch.start sampleRow true).run sampleOutcome sampleMoves).collector.answer? =
      some (.ok (sampleResults, ⟨3, 1, 2⟩)) := by
  rfl

theorem Dispatch.collected_eq_map_sampleMoves :
    ((start sampleRow true).run sampleOutcome sampleMoves).collector.answer? =
      some (.ok (sampleResults, ⟨3, 1, 2⟩)) ∧
    sampleResults.map (·.tile) = sampleRow.tiles ∧
    ((start sampleRow true).run sampleOutcome sampleMoves).collector.warnings.toList =
      sampleRow.tiles.filterMap fun t => (sampleOutcome t).warning? t := by
  have h := collected_eq_map sampleOutcome sampleRow true sampleMoves answer?_sampleMoves
  exact ⟨answer?_sampleMoves, h.2.1, h.2.2.2.2.2.2⟩

end WorldMap
