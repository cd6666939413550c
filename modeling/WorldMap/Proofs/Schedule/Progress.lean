import WorldMap.Proofs.Geometry.Grid
import WorldMap.Proofs.Number.Fraction
import WorldMap.Proofs.Schedule.Calls
import WorldMap.Proofs.Schedule.Invariant
/-!
# Progress of a job

The tasks of a job make one call of the tracker each, so a run of the job is, for the tracker, a run of
its calls: `Batch.Tracks` says which call stands where, and every change of the job is some steps of
the calls. What is true of calls in any order is thereby true of the reports of a job.
-/

namespace WorldMap

variable {α : Type} {compute : Tile → Attempt TileError α}

/-- A task in this phase has brought its call to `c`. -/
def Phase.IsAt (c : Call) : Phase α → Prop
  | .counted _ n => c = .counted n
  | .reported _ => ∃ n, c = .returned n
  | .sent _ => ∃ n, c = .returned n
  | _ => c = .pending

theorem Phase.exists_result?_of_isAt {p : Phase α} {c : Call} (hat : p.IsAt c)
    (hcount : c.count?.isSome = true) : ∃ r, p.result? = some r := by
  cases p with
  | counted r n => exact ⟨r, rfl⟩
  | reported r => exact ⟨r, rfl⟩
  | sent r => exact ⟨r, rfl⟩
  | _ =>
    obtain rfl : c = .pending := hat
    simp [Call.count?] at hcount

namespace Batch

variable {b : Batch α} {u : Calls} {i : Nat} {task new : TileTask α} {t : Tracker}

theorem mem_tiles_iff {tile : Tile} :
    tile ∈ b.tiles ↔ ∃ (i : Nat) (task : TileTask α), b.tasks[i]? = some task ∧ task.tile = tile := by
  simp only [tiles, List.mem_map, Array.mem_toList_iff, Array.mem_iff_getElem?]
  constructor
  · rintro ⟨task, ⟨i, htask⟩, htile⟩
    exact ⟨i, task, htask, htile⟩
  · rintro ⟨i, task, htask, htile⟩
    exact ⟨task, ⟨i, htask⟩, htile⟩

/-- The calls that the tasks of a batch make of its tracker. -/
structure Tracks (b : Batch α) (u : Calls) : Prop where
  tracker : u.tracker = b.tracker
  length : u.calls.length = b.size
  calls : ∀ (i : Nat) (task : TileTask α), b.tasks[i]? = some task →
    ∃ c, u.calls[i]? = some c ∧ task.phase.IsAt c

namespace Tracks

theorem ofGrid (g : Grid) : (Batch.ofGrid (α := α) g true).Tracks (Calls.start g.size g.size) := by
  refine ⟨rfl, ?_, fun i task htask => ⟨.pending, ?_, ?_⟩⟩
  · simp [Calls.start, Batch.ofGrid, size, g.length_tiles]
  · obtain ⟨hi, -⟩ := Array.getElem?_eq_some_iff.1 htask
    have hlt : i < g.size := by simpa [Batch.ofGrid, g.length_tiles] using hi
    simp [Calls.start, hlt]
  · obtain ⟨tile, rfl⟩ := exists_queue_of_ofGrid htask
    rfl

/-- A task that takes a step, with its call. -/
private theorem put (h : b.Tracks u) (htask : b.tasks[i]? = some task) {c : Call}
    (hat : new.phase.IsAt c) : (b.put i new t).Tracks ⟨t, u.calls.set i c⟩ := by
  refine ⟨rfl, by simp [h.length, Batch.put, size], fun j other hother => ?_⟩
  rw [getElem?_put htask] at hother
  obtain ⟨hi, -⟩ := Array.getElem?_eq_some_iff.1 htask
  have hi' : i < u.calls.length := by
    rw [h.length]
    exact hi
  split at hother
  · subst j
    obtain rfl := Option.some.inj hother
    exact ⟨c, List.getElem?_set_self hi', hat⟩
  · rename_i hne
    rw [List.getElem?_set_ne hne]
    exact h.calls j other hother

/-- A task that takes a step of which its call knows nothing. -/
private theorem put_same (h : b.Tracks u) (htask : b.tasks[i]? = some task)
    (hsame : ∀ c, task.phase.IsAt c → new.phase.IsAt c) : (b.put i new b.tracker).Tracks u := by
  obtain ⟨c, hcall, hat⟩ := h.calls i task htask
  obtain ⟨hi, hc⟩ := List.getElem?_eq_some_iff.1 hcall
  have hu : (⟨b.tracker, u.calls.set i c⟩ : Calls) = u := by
    rw [← hc, List.set_getElem_self, ← h.tracker]
  exact hu ▸ h.put htask (hsame c hat)

private theorem drain (h : b.Tracks u) (c : Collector α) : (c.drain b).Tracks u := by
  unfold Collector.drain
  split
  · cases htask : b.tasks[c.results.size]? with
    | none => rwa [modify_of_none htask]
    | some task =>
      rw [modify_eq_put htask]
      exact h.put_same htask fun _ hat => hat
  · exact h

end Tracks

end Batch

namespace Dispatch

variable {g : Grid} {s s' : Dispatch α} {u : Calls} {i : Nat} {task new : TileTask α} {t : Tracker}

/-- A step of a task is at most one step of its call. -/
private theorem tracks_advance (h : s.batch.Tracks u) (htask : s.batch.tasks[i]? = some task)
    (hadvance : task.Advance compute s.cancelled s.batch.tracker new t) :
    ∃ steps, (s.put i new t).batch.Tracks (u.run steps) := by
  obtain ⟨c, hcall, hat⟩ := h.calls i task htask
  cases hadvance with
  | begin hphase _ =>
    exact ⟨[], h.put_same htask fun c hat => by rw [hphase] at hat; exact hat⟩
  | skip hphase _ =>
    exact ⟨[], h.put_same htask fun c hat => by rw [hphase] at hat; exact hat⟩
  | finish hphase =>
    exact ⟨[], h.put_same htask fun c hat => by rw [hphase] at hat; exact hat⟩
  | @count r hphase =>
    rw [hphase] at hat
    obtain rfl : c = .pending := hat
    have hstep : u.run [.count i] =
        ⟨s.batch.tracker.count.2, u.calls.set i (.counted s.batch.tracker.count.1)⟩ := by
      rw [← h.tracker]
      exact Calls.step_count hcall
    exact ⟨[.count i], hstep ▸ h.put htask rfl⟩
  | @report r n hphase breaksOff =>
    rw [hphase] at hat
    obtain rfl : c = .counted n := hat
    have hstep : u.run [.report i breaksOff] =
        ⟨s.batch.tracker.report n breaksOff, u.calls.set i (.returned n)⟩ := by
      rw [← h.tracker]
      exact Calls.step_report hcall breaksOff
    exact ⟨[.report i breaksOff], hstep ▸ h.put htask ⟨n, rfl⟩⟩
  | send hphase _ =>
    exact ⟨[], h.put_same htask fun c hat => by rw [hphase] at hat; exact hat⟩

private theorem tracks_change (hchange : s.Change compute s') (h : s.batch.Tracks u) :
    ∃ steps, s'.batch.Tracks (u.run steps) := by
  cases hchange with
  | work htask hadvance => exact tracks_advance h htask hadvance
  | collect _ _ => exact ⟨[], h.drain s.collector⟩
  | release _ htask => exact ⟨[], h.put_same htask fun _ hat => hat⟩
  | _ => exact ⟨[], h⟩

/-- For the tracker, a run of a job is a run of calls. -/
theorem exists_steps (compute : Tile → Attempt TileError α) (g : Grid) (moves : List Move) :
    ∃ steps, ((start g true).run compute moves).batch.Tracks
      ((Calls.start g.size g.size).run steps) := by
  refine run_keeps (fun s => ∃ steps, s.batch.Tracks ((Calls.start g.size g.size).run steps))
    (fun s s' hchange => ?_) ⟨[], .ofGrid g⟩ moves
  rintro ⟨before, h⟩
  obtain ⟨after, h'⟩ := tracks_change hchange h
  exact ⟨before ++ after, by rwa [Calls.run_append]⟩

theorem exists_calls (compute : Tile → Attempt TileError α) (g : Grid) (moves : List Move) :
    ∃ u : Calls, ((start g true).run compute moves).batch.Tracks u ∧ u.Sound ∧
      u.calls.length = g.size ∧ u.tracker.total = g.size := by
  obtain ⟨steps, htracks⟩ := exists_steps compute g moves
  exact ⟨_, htracks, (Calls.Sound.start g.size g.size).run steps,
    Calls.length_run_start g.size g.size steps, Calls.total_run (Calls.start g.size g.size) steps⟩

/-- When the number of all tiles is reported, every tile has been computed. -/
theorem computed_of_mem_reports (hsound : s.Sound compute g) (htracks : s.batch.Tracks u)
    (hu : u.Sound) (hlength : u.calls.length = g.size) (hmem : g.size ∈ u.tracker.reports)
    {t : Tile} (ht : g.contains t = true) :
    ∃ i, s.batch.tile i = t ∧ (s.batch.phase i).result? = some (compute t).outcome := by
  rw [← hlength] at hmem
  have htile : t ∈ s.batch.tiles := by rwa [hsound.tasks.tiles, Grid.mem_tiles_iff]
  obtain ⟨i, task, htask, rfl⟩ := Batch.mem_tiles_iff.1 htile
  obtain ⟨c, hcall, hat⟩ := htracks.calls i task htask
  have hcounted := hu.counted_of_mem_reports hmem c (List.mem_of_getElem? hcall)
  obtain ⟨r, hr⟩ := Phase.exists_result?_of_isAt hat hcounted
  refine ⟨i, Batch.tile_of_task htask, ?_⟩
  rw [Batch.phase_of_task htask, hr, (hsound.tasks.tasks i task htask).result r hr]

/-- When the collection is complete, every call has returned. -/
theorem returned_of_complete (hsound : s.Sound compute g) (htracks : s.batch.Tracks u)
    (hcomplete : s.collector.stage = .complete) : ∀ c ∈ u.calls, ∃ n, c = .returned n := by
  intro c hc
  obtain ⟨i, hi, rfl⟩ := List.getElem_of_mem hc
  rw [htracks.length] at hi
  have htask := Array.getElem?_eq_getElem hi
  obtain ⟨c, hcall, hat⟩ := htracks.calls i _ htask
  obtain ⟨r, hr⟩ := hsound.sent_of_complete hcomplete htask
  rw [hr] at hat
  obtain ⟨n, rfl⟩ := hat
  exact ⟨n, (List.getElem?_eq_some_iff.1 hcall).2⟩

end Dispatch

/-- Progress rises, and ends with the whole. Calls of a tracker, their steps taken in any order, return
the numbers from one on; what the listener is told rises and never runs ahead of the calls that have
counted; and it is told of the last number before all calls have returned. A call that nothing comes
between is `Tracker.finishTile`. So the listener of a job learns of all tiles, which is the share of
one, at most once and not before every tile has been computed, and when a collection ends well that
was the last that it learned. -/
theorem Tracker.reports_rise_to_total :
    (∀ (total n : Nat) (steps : List CallStep),
      let u := (Calls.start total n).run steps
      u.tracker.reports.toList.Pairwise (· < ·) ∧
      (∀ k ∈ u.tracker.reports, k ≤ u.counts.length) ∧
      ((∀ c ∈ u.calls, ∃ k, c = .returned k) →
        u.results.Perm (List.range' 1 n) ∧ (0 < n → u.tracker.reports.back? = some n))) ∧
    (∀ (u : Calls) (i : Nat) (breaksOff : Nat → Bool), u.calls[i]? = some .pending →
      u.run [.count i, .report i (breaksOff u.tracker.nextCall)] =
        ⟨(u.tracker.finishTile breaksOff).2,
          u.calls.set i (.returned (u.tracker.finishTile breaksOff).1)⟩) ∧
    (∀ (compute : Tile → Attempt TileError α) (g : Grid) (moves : List Move), g.isEmpty = false →
      let s := (Dispatch.start g true).run compute moves
      let reports := s.batch.tracker.reports
      (∀ k ∈ reports, Binary.one.le (Binary.completion k g.size) = true ↔ k = g.size) ∧
      (g.size ∈ reports → ∀ t, g.contains t = true →
        ∃ i, s.batch.tile i = t ∧ (s.batch.phase i).result? = some (compute t).outcome) ∧
      reports.count g.size ≤ 1 ∧
      (∀ collected, s.collector.answer? = some (.ok collected) →
        reports.back? = some g.size ∧
          s.batch.tracker.reportedFractions.getLast? = some Binary.one)) := by
  refine ⟨?_, fun u i breaksOff hcall => Calls.run_finishTile hcall breaksOff, ?_⟩
  · intro total n steps u
    have hu : u.Sound := (Calls.Sound.start total n).run steps
    have hlength : u.calls.length = n := Calls.length_run_start total n steps
    refine ⟨hu.tracker.increasing, fun k => hu.le_length_counts, fun hdone => ⟨?_, fun hpos => ?_⟩⟩
    · exact hlength ▸ hu.results_perm hdone
    · exact hlength ▸ hu.back?_reports hdone (hlength ▸ hpos)
  · intro compute g moves hgrid s reports
    have hsound : s.Sound compute g := Dispatch.run_sound compute g true moves
    obtain ⟨u, htracks, hu, hlength, htotal⟩ := Dispatch.exists_calls compute g moves
    have hreports : reports = u.tracker.reports := by rw [htracks.tracker]
    rw [hreports, ← htracks.tracker]
    refine ⟨fun k hk => ?_, fun hmem t ht => ?_, hu.tracker.count_reports_le_one g.size,
      fun collected hanswer => ?_⟩
    · have hle := hu.le_length_counts hk
      have hle' := List.length_filterMap_le Call.count? u.calls
      rw [Calls.counts] at hle
      rw [Binary.one_le_completion_iff]
      omega
    · exact Dispatch.computed_of_mem_reports hsound htracks hu hlength hmem ht
    · have hcomplete := (Collector.answer?_eq_ok_iff.1 hanswer).1
      have hdone := Dispatch.returned_of_complete hsound htracks hcomplete
      have hpos : 0 < u.calls.length := by
        rw [hlength]
        simpa [Grid.isEmpty, Nat.pos_iff_ne_zero] using hgrid
      have hlast := hu.back?_reports hdone hpos
      rw [hlength] at hlast
      refine ⟨hlast, ?_⟩
      rw [Tracker.getLast?_reportedFractions, hlast, htotal, Option.map_some,
        Binary.completion_self]

private def twoTiles : Grid := .ofCorners 0 0 2 1

private def drawNine (_ : Tile) : Attempt TileError Nat := .ok 9

/-- The tile that counts first is overtaken on its way to the listener. -/
private def crossingSteps : List CallStep :=
  [.count 0, .count 1, .report 1 true, .report 0 false]

private def crossingMoves : List Move :=
  [.check 0, .check 1, .finish 1, .finish 0, .count 0, .count 1, .report 1 true, .report 0 false,
    .send 1, .send 0] ++ List.replicate 13 .collect

set_option maxRecDepth 4096 in
private theorem answer?_crossingMoves :
    ((Dispatch.start twoTiles true).run drawNine crossingMoves).collector.answer? =
      some (.ok ([⟨⟨0, 0⟩, some 9⟩, ⟨⟨1, 0⟩, some 9⟩], ⟨2, 2, 0⟩)) := by
  rfl

theorem Tracker.reports_rise_to_total_crossing :
    ((Calls.start 2 2).run crossingSteps).results.Perm [1, 2] ∧
    ((Calls.start 2 2).run crossingSteps).tracker.reports.back? = some 2 ∧
    ((Dispatch.start twoTiles true).run drawNine crossingMoves).batch.tracker.reports.back? =
      some twoTiles.size ∧
    (Calls.start 2 2).run [.count 0, .report 0 true] =
      ⟨((Tracker.start 2 true).finishTile fun _ => true).2, [.returned 1, .pending]⟩ := by
  obtain ⟨hcalls, hfinish, hjobs⟩ := reports_rise_to_total (α := Nat)
  have hdone : ∀ c ∈ ((Calls.start 2 2).run crossingSteps).calls, ∃ k, c = .returned k := by
    intro c hc
    change c ∈ [Call.returned 1, Call.returned 2] at hc
    rcases List.mem_pair.1 hc with rfl | rfl <;> exact ⟨_, rfl⟩
  obtain ⟨-, -, hends⟩ := hcalls 2 2 crossingSteps
  obtain ⟨-, -, -, hends'⟩ := hjobs drawNine twoTiles crossingMoves (by decide)
  exact ⟨(hends hdone).1, (hends hdone).2 (by decide), (hends' _ answer?_crossingMoves).1,
    hfinish (Calls.start 2 2) 0 (fun _ => true) rfl⟩

end WorldMap
