import WorldMap.Proofs.Render.Outcome
/-!
# A render that succeeds can be repeated

Whatever else goes on on its engine, a call that succeeds has the picture of its job as its target.
The picture depends on the view that the job asks for and on nothing else, so two calls for one view
have one image: over a buffer of the caller's or a new one, with few workers or many, after or
beside calls that fail, and also where the engine renders from gate to exit without a break.
-/

namespace WorldMap

variable {σ : Type}

namespace Job.SameView

variable {j j' : Job}

theorem refl (j : Job) : j.SameView j := ⟨rfl, rfl, rfl⟩

end Job.SameView

namespace Rendering.Sound

variable {e : Engine σ} {compute : Tile → Attempt TileError Pixmap} {s s' : Shared}
  {r r' : Rendering}

/-- A call that has succeeded has the picture of every job of its view. -/
theorem picture_eq (h : r.Sound e compute s) (hok : r.station.result? = some (.ok ())) {job : Job}
    (hview : r.job.SameView job) {canvas : Image} (hwidth : canvas.width = job.width.toNat)
    (hheight : canvas.height = job.height.toNat) :
    e.picture compute job canvas = .ok r.target := by
  obtain ⟨haccepts, hpicture⟩ := h.succeeds hok
  obtain ⟨haccepted, hwidth', hheight'⟩ := Engine.accepts_eq_ok_iff.1 haccepts
  rw [← hpicture]
  exact (Engine.picture_congr haccepted hview hwidth' hheight' hwidth hheight).symm

/-- Calls that succeed for one view have one image. The workers take no part in the picture. -/
theorem target_eq {workers : Nat} (h : r.Sound e compute s)
    (h' : r'.Sound { e with workers } compute s') (hok : r.station.result? = some (.ok ()))
    (hok' : r'.station.result? = some (.ok ())) (hview : r.job.SameView r'.job) :
    r'.target = r.target := by
  obtain ⟨haccepts, -⟩ := h'.succeeds hok'
  obtain ⟨-, hwidth, hheight⟩ := Engine.accepts_eq_ok_iff.1 haccepts
  have hpicture := h.picture_eq hok hview hwidth hheight
  have hpicture' := h'.picture_eq hok' (.refl r'.job) hwidth hheight
  change e.picture compute r'.job r'.original = .ok r'.target at hpicture'
  rw [hpicture] at hpicture'
  exact (Except.ok.inj hpicture').symm

end Rendering.Sound

namespace Engine

variable {e : Engine σ}

/-- An image that is rendered in one go is the target of a call that has succeeded. -/
theorem exists_call_of_ok {job : Job} {canvas image : Image} {s : Session}
    (h : (e.render job s).1 = .ok image ∨ (e.renderInto job canvas s).1 = .ok image) :
    ∃ (s' : Shared) (r : Rendering), r.Sound e e.computeTile s' ∧ r.job = job ∧
      r.station.result? = some (.ok ()) ∧ r.target = image := by
  have hcall : ∃ acts s' r rest, ∃ result : Attempt RenderError Image,
      (Workshop.of s).run e (fun _ => e.computeTile) acts = Workshop.single s' r ∧ r.job = job ∧
        r.station = .returned (result.map fun _ => ()) rest ∧ result = .ok image ∧
        ∀ image, result = .ok image → r.target = image := by
    rcases h with hrender | hrender
    · obtain ⟨acts, r, rest, hrun, hjob, hstation, htarget⟩ := exists_acts_render e job s
      exact ⟨acts, _, r, rest, _, hrun, hjob, hstation, hrender, htarget⟩
    · obtain ⟨acts, r, rest, hrun, hjob, -, hstation, htarget⟩ :=
        exists_acts_renderInto e job canvas s
      exact ⟨acts, _, r, rest, _, hrun, hjob, hstation, hrender, htarget⟩
  obtain ⟨acts, s', r, rest, result, hrun, hjob, hstation, rfl, htarget⟩ := hcall
  obtain ⟨hsound, -⟩ := Workshop.sound_of_single hrun
  exact ⟨s', r, hsound, hjob, by rw [hstation]; rfl, htarget image rfl⟩

end Engine

namespace Workshop

/-- What a successful call renders depends on the view of its job alone. Its target is what the tiles
that show come to, one after the other in the order of the grid: the source is asked for the volume of
each of them, and the layers draw its answer. They are composed over a canvas of the right size that
may show anything. A call that succeeds on an engine of the same source, layers and colors, with any
number of workers and in any company, has the same image if it asks for the same view, and so has a
render from gate to exit in one go. -/
theorem successful_call_has_picture (e : Engine σ) (s : Session) (acts : List Act) {k : Nat}
    {r : Rendering} (hcall : ((of s).run e (fun _ => e.computeTile) acts).calls[k]? = some r)
    (hok : r.station.result? = some (.ok ())) :
    (∃ view area grid, r.job.viewport = .ok view ∧ view.worldArea = .ok area ∧
      Grid.cover area e.layout = .ok grid ∧
      ∀ canvas : Image, canvas.width = r.job.width.toNat → canvas.height = r.job.height.toNat →
        e.compositor.composite canvas view (grid.tiles.map fun t =>
          ⟨t, Except.toOption (do
            let sample ← (e.source.query (t.volume e.layout)).mapFailure TileError.source
            e.rasterizer.rasterize sample)⟩) = .ok r.target) ∧
    (∀ (workers : Nat) (s' : Session) (acts' : List Act) (k' : Nat) (r' : Rendering),
      ((of s').run { e with workers } (fun _ => e.computeTile) acts').calls[k']? = some r' →
      r'.station.result? = some (.ok ()) → r.job.SameView r'.job → r'.target = r.target) ∧
    (∀ (s' : Session) (job : Job) (canvas image : Image), r.job.SameView job →
      (e.render job s').1 = .ok image ∨ (e.renderInto job canvas s').1 = .ok image →
      image = r.target) := by
  have hsound := run_sound e (fun _ => e.computeTile) s acts k r hcall
  refine ⟨?_, fun workers s' acts' k' r' hcall' hok' hview => ?_,
    fun s' job canvas image hview himage => ?_⟩
  · obtain ⟨haccepted, -⟩ := Engine.accepts_eq_ok_iff.1 (hsound.succeeds hok).1
    obtain ⟨view, area, hview, harea, -⟩ := haccepted.exists_sees
    refine ⟨view, area, _, hview, harea, Grid.cover_eq .., fun canvas hwidth hheight => ?_⟩
    have hpicture := hsound.picture_eq hok (.refl r.job) hwidth hheight
    rwa [Engine.picture_of_visible (Job.visible_eq_ok hview harea)] at hpicture
  · have hsound' := run_sound { e with workers } (fun _ => e.computeTile) s' acts' k' r' hcall'
    exact hsound.target_eq hsound' hok hok' hview
  · obtain ⟨shared, r', hsound', rfl, hok', rfl⟩ := Engine.exists_call_of_ok himage
    have hsame : r'.Sound { e with workers := e.workers } e.computeTile shared := hsound'
    exact hsound.target_eq hsame hok hok' hview

/-- A source that has nothing to show left of the origin, and one layer that colors the tile at the
origin green and all others blue. -/
private def stripEngine : Engine Volume where
  source := ⟨"strip", fun _ => .ok (),
    fun v => if v.minX < 0 then .error (.error (.outOfBounds v)) else .ok v⟩
  rasterizer := ⟨[⟨"color", true, fun v canvas =>
    .ok (canvas.fill (if v.minX = 0 then ⟨0, 96, 0, 255⟩ else ⟨0, 0, 96, 255⟩))⟩],
    Layout.ofFootprint 1 1, Color.transparent⟩
  compositor := ⟨Layout.ofFootprint 1 1, Compositor.axisGray, Color.transparent⟩
  workers := 2

/-- Three pixels in a row, each of them of another tile. -/
private def quietJob : Job := ⟨3, 1, 1, none, ⟨7, []⟩⟩

private def watchedJob : Job := ⟨3, 1, 1, some fun _ => ⟨false, false, false⟩, ⟨9, []⟩⟩

private def stripTarget (c : Color) : Image := Raster.replicate 3 1 c

/-- The work on the tiles of call `k`, from the last tile to the first. -/
private def stripWork (k : Nat) : List Act :=
  [2, 1, 0].flatMap fun i => (Move.ofTask i false).map (.work k)

/-- A call for the quiet job, with the engine to itself. -/
private def quietActs : List Act :=
  [.renderInto quietJob (stripTarget ⟨255, 0, 0, 255⟩)] ++ List.replicate 4 (.advance 0) ++
    stripWork 0 ++ List.replicate 19 (.work 0 .collect) ++ List.replicate 2 (.advance 0)

/-- A call for the watched job, while one for the quiet job is cancelled. -/
private def watchedActs : List Act :=
  [.renderInto quietJob (stripTarget ⟨0, 0, 0, 255⟩), .render watchedJob] ++
    List.replicate 4 (.advance 0) ++ List.replicate 5 (.advance 1) ++
    List.replicate 4 (.work 1 .collect) ++ [.fire quietJob.token, .work 0 (.check 0)] ++
    stripWork 1 ++ List.replicate 20 (.work 1 .collect) ++
    List.replicate 3 (.work 0 .collect) ++ [.advance 0, .advance 1, .advance 1, .advance 0]

private def quietRun : Workshop :=
  (of stripEngine.newSession).run stripEngine (fun _ => stripEngine.computeTile) quietActs

private def watchedRun : Workshop :=
  (of stripEngine.newSession).run { stripEngine with workers := 5 }
    (fun _ => stripEngine.computeTile) watchedActs

set_option maxRecDepth 4096 in
private theorem exists_quietRun :
    ∃ r, quietRun.calls[0]? = some r ∧ r.station.result? = some (.ok ()) ∧ r.job = quietJob :=
  ⟨_, rfl, rfl, rfl⟩

set_option maxRecDepth 4096 in
private theorem exists_watchedRun :
    ∃ r, watchedRun.calls[1]? = some r ∧ r.station.result? = some (.ok ()) ∧ r.job = watchedJob :=
  ⟨_, rfl, rfl, rfl⟩

theorem successful_call_has_picture_stripEngine :
    ∃ r r', quietRun.calls[0]? = some r ∧ r.station.result? = some (.ok ()) ∧
      watchedRun.calls[1]? = some r' ∧ r'.station.result? = some (.ok ()) ∧
      r'.target = r.target ∧
      r.target.cells = #[Compositor.axisGray, ⟨0, 96, 0, 255⟩, ⟨0, 0, 96, 255⟩] := by
  obtain ⟨r, hcall, hok, hjob⟩ := exists_quietRun
  obtain ⟨r', hcall', hok', hjob'⟩ := exists_watchedRun
  obtain ⟨⟨view, area, grid, hview, harea, hgrid, hpicture⟩, hsame, -⟩ :=
    successful_call_has_picture stripEngine stripEngine.newSession quietActs hcall hok
  rw [hjob] at hview hpicture hsame
  obtain rfl := Except.ok.inj (show Except.ok ⟨3, 1, 1, -1, 0⟩ = .ok view from hview)
  obtain rfl := Except.ok.inj (show Except.ok ⟨-1, 0, 3, 1⟩ = .ok area from harea)
  obtain rfl := Except.ok.inj ((Grid.cover_eq _ _).symm.trans hgrid)
  refine ⟨r, r', hcall, hok, hcall', hok', ?_, ?_⟩
  · apply hsame 5 stripEngine.newSession watchedActs 1 r' hcall' hok'
    rw [hjob']
    exact ⟨rfl, rfl, rfl⟩
  · have himage := hpicture (stripTarget Color.transparent) rfl rfl
    have hcells := congrArg (fun image => image.toOption.map Raster.cells) himage
    change _ = some r.target.cells at hcells
    rw [← Option.some_inj, ← hcells]
    decide +kernel

end Workshop

end WorldMap
