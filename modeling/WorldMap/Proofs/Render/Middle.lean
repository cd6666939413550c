import WorldMap.Proofs.Render.Repetition
import WorldMap.Proofs.Tiles.Guides
/-!
# The world origin in the middle

Whatever the scale of a job, the world origin falls on the pixel in the middle of its output, so both
guide lines are on the canvas. As far as single precision keeps the sides of the output, which is up
to two to the power 24, a render that succeeds shows both lines from end to end. One pixel beyond, the
last pixel of the row is lost.
-/

namespace WorldMap

variable {σ : Type}

namespace Engine

variable {e : Engine σ} {compute : Tile → Attempt TileError Pixmap} {j : Job} {v : Viewport}
  {a : Area} {image : Image}

/-- The image shows the tiles of the job, and over them a row and a column of guide lines that cross
on the pixel in the middle. Lines of an opaque color are of that color from end to end. -/
structure Crossed (e : Engine σ) (compute : Tile → Attempt TileError Pixmap) (j : Job)
    (v : Viewport) (a : Area) (image : Image) : Prop where
  guided : ∃ surface canvas final,
    Pixmap.blank? j.width.toNat j.height.toNat = some surface ∧
      e.compositor.lay v surface (e.shown compute a) = .ok canvas ∧
      e.compositor.Guided canvas (j.width.toNat / 2 : Nat) (j.height.toNat / 2 : Nat) final ∧
      image = final.toImage
  row : e.compositor.axisColor.a = 255 → ∀ px, px < j.width.toNat →
    image.cell? px (j.height.toNat / 2) = some e.compositor.axisColor
  column : e.compositor.axisColor.a = 255 → ∀ py, py < j.height.toNat →
    image.cell? (j.width.toNat / 2) py = some e.compositor.axisColor

theorem crossed_of_picture (h : j.Accepted) (hsees : j.Sees v a) (hvisible : j.visible = .ok (v, a))
    (hwidth : j.width.toNat ≤ 16777216) (hheight : j.height.toNat ≤ 16777216) {target : Image}
    (htargetW : target.width = j.width.toNat) (htargetH : target.height = j.height.toNat)
    (hpicture : e.picture compute j target = .ok image) : e.Crossed compute j v a image := by
  obtain ⟨surface, hsurface⟩ := h.exists_surface
  obtain ⟨-, hsurfaceW, hsurfaceH⟩ := Pixmap.size_of_blank? hsurface
  have hsurface' := hsurface
  rw [← htargetW, ← htargetH] at hsurface'
  rw [picture_of_visible hvisible] at hpicture
  cases hlay : e.compositor.lay v surface (e.shown compute a) with
  | error fault =>
    rw [Compositor.composite_of_lay_error hsurface' hlay] at hpicture
    cases hpicture
  | ok canvas =>
    have hcanvasW := (Compositor.size_of_lay hlay).1.trans hsurfaceW
    have hcanvasH := (Compositor.size_of_lay hlay).2.trans hsurfaceH
    obtain ⟨final, hfinal, hguided⟩ := Compositor.exists_guided (c := e.compositor)
      (hsees.toOutput_origin h) (hcanvasW ▸ hwidth)
      (hcanvasH ▸ hheight)
    rw [Compositor.composite_of_lay hsurface' hlay, hfinal] at hpicture
    obtain rfl : final.toImage = image := Except.ok.inj hpicture
    have hwidthPos := h.width_pos
    have hheightPos := h.height_pos
    refine ⟨⟨surface, canvas, final, hsurface, hlay, hguided, rfl⟩, fun halpha px hpx => ?_,
      fun halpha py hpy => ?_⟩
    · exact hguided.cell?_toImage_of_opaque halpha (by omega) (by omega) (.inr rfl)
    · exact hguided.cell?_toImage_of_opaque halpha (by omega) (by omega) (.inl rfl)

end Engine

theorem Rendering.Sound.crossed {e : Engine σ} {compute : Tile → Attempt TileError Pixmap}
    {s : Shared} {r : Rendering} {v : Viewport} {a : Area} (hsound : r.Sound e compute s)
    (hok : r.station.result? = some (.ok ())) (h : r.job.Accepted) (hsees : r.job.Sees v a)
    (hvisible : r.job.visible = .ok (v, a)) (hwidth : r.job.width.toNat ≤ 16777216)
    (hheight : r.job.height.toNat ≤ 16777216) : e.Crossed compute r.job v a r.target := by
  obtain ⟨haccepts, hpicture⟩ := hsound.succeeds hok
  obtain ⟨-, horiginalW, horiginalH⟩ := Engine.accepts_eq_ok_iff.1 haccepts
  exact Engine.crossed_of_picture h hsees hvisible hwidth hheight horiginalW horiginalH hpicture

/-- At any scale the world origin falls on the pixel in the middle, which is on the output, and as
long as no side is longer than two to the power 24 all renders of the job show both guide lines
through it: those from gate to exit in one go, and those that succeed in whatever company. -/
theorem Job.guides_cross_in_middle (j : Job) (hvalid : j.validate = .ok ()) :
    ∃ v a, j.viewport = .ok v ∧ v.worldArea = .ok a ∧
      v.toOutput 0 0 = .ok (((j.width.toNat / 2 : Nat) : Int), ((j.height.toNat / 2 : Nat) : Int)) ∧
      j.width.toNat / 2 < j.width.toNat ∧ j.height.toNat / 2 < j.height.toNat ∧
      (j.width.toNat ≤ 16777216 → j.height.toNat ≤ 16777216 → ∀ {σ : Type} (e : Engine σ),
        (∀ (s : Session) (target image : Image),
          (e.render j s).1 = .ok image ∨ (e.renderInto j target s).1 = .ok image →
          e.Crossed e.computeTile j v a image) ∧
        ∀ (compute : Nat → Tile → Attempt TileError Pixmap) (s : Session) (acts : List Act) (k : Nat)
          (r : Rendering), ((Workshop.of s).run e compute acts).calls[k]? = some r → r.job = j →
          r.station.result? = some (.ok ()) → e.Crossed (compute k) j v a r.target) := by
  have h := validate_eq_ok_iff.1 hvalid
  obtain ⟨v, a, hview, harea, hsees⟩ := h.exists_sees
  have hvisible := visible_eq_ok hview harea
  refine ⟨v, a, hview, harea, hsees.toOutput_origin h, Nat.div_lt_self h.width_pos (by decide),
    Nat.div_lt_self h.height_pos (by decide), fun hwidth hheight σ e => ⟨?_, ?_⟩⟩
  · intro s target image hrender
    obtain ⟨shared, r, hsound, rfl, hok, rfl⟩ := Engine.exists_call_of_ok hrender
    exact hsound.crossed hok h hsees hvisible hwidth hheight
  · rintro compute s acts k r hcall rfl hok
    exact (Workshop.run_sound e compute s acts k r hcall).crossed hok h hsees hvisible hwidth hheight

namespace Engine

section Bare

/-- Nothing is to be seen but guide lines, as no tile has an image. -/
private def bareEngine : Engine Unit where
  source := ⟨"bare", fun _ => .ok (), fun _ => .ok ()⟩
  rasterizer := ⟨[], Layout.ofFootprint 4294967295 1, Color.transparent⟩
  compositor := ⟨Layout.ofFootprint 4294967295 1, Color.transparent, Compositor.axisGray⟩
  workers := 1

/-- Odd by even pixels, of three by three world points each. -/
private def unevenJob : Job := ⟨3, 2, 3, none, ⟨0, []⟩⟩

theorem guides_cross_in_middle_unevenJob :
    unevenJob.validate = .ok () ∧ unevenJob.width.toNat ≤ 16777216 ∧
      unevenJob.height.toNat ≤ 16777216 ∧
      ∃ image, (bareEngine.render unevenJob bareEngine.newSession).1 = .ok image ∧
        (∀ px, px < 3 → image.cell? px 1 = some Compositor.axisGray) ∧
        ∀ py, py < 2 → image.cell? 1 py = some Compositor.axisGray := by
  have hvalid : unevenJob.validate = .ok () := by decide
  obtain ⟨image, himage⟩ :
      ∃ image, (bareEngine.render unevenJob bareEngine.newSession).1 = .ok image := ⟨_, rfl⟩
  obtain ⟨v, a, -, -, -, -, -, hcrossed⟩ := Job.guides_cross_in_middle unevenJob hvalid
  obtain ⟨-, hrow, hcolumn⟩ :=
    (hcrossed (by decide) (by decide) bareEngine).1 _ image image (.inl himage)
  exact ⟨hvalid, by decide, by decide, image, himage, hrow rfl, hcolumn rfl⟩

/-- One pixel more than single precision keeps. -/
private def longJob : Job := ⟨16777217, 1, 1, none, ⟨0, []⟩⟩

private def longView : Viewport := ⟨16777217, 1, 1, -8388608, 0⟩

private def longArea : Area := ⟨-8388608, 0, 16777217, 1⟩

private def longTarget : Image := Raster.replicate 16777217 1 Color.transparent

private def longTiles : List (TileResult Pixmap) := [⟨⟨-1, 0⟩, none⟩, ⟨⟨0, 0⟩, none⟩]

/-- As wide as it takes for the middle itself to be the last number that is kept. -/
private def doubleJob : Job := ⟨33554432, 2, 1, none, ⟨0, []⟩⟩

private def doubleView : Viewport := ⟨33554432, 2, 1, -16777216, -1⟩

/-- A render whose tiles are collected has the image that they are composed to. -/
private theorem renderInto_of_collect {e : Engine σ} {job : Job} {target image : Image}
    {v : Viewport} {a : Area} {s opened collected : Session} {tiles : List (TileResult Pixmap)}
    {stats : Stats} (hgate : gate s.life job target.width target.height = .ok ())
    (hprepare : e.prepare { s with life := s.life.enter } = (.ok (), opened))
    (hvisible : job.visible = .ok (v, a)) (hroom : Batch.room (Grid.covering a e.layout) = .ok ())
    (hcollect : e.collect job (Grid.covering a e.layout)
      (opened.note (.rendering a (Grid.covering a e.layout).size job.scale)) =
        (.ok (tiles, stats), collected))
    (hcomposite : e.compositor.composite target v tiles = .ok image) :
    (e.renderInto job target s).1 = .ok image := by
  simp only [renderInto, hgate, renderActive, hprepare]
  rw [plan_of_visible hvisible]
  dsimp only
  rw [hroom]
  dsimp only
  rw [hcollect]
  dsimp only
  rw [hcomposite]

private theorem render_longJob {image : Image}
    (hcomposite : bareEngine.compositor.composite longTarget longView longTiles = .ok image) :
    (bareEngine.render longJob bareEngine.newSession).1 = .ok image := by
  have hgate : gate bareEngine.newSession.life longJob longJob.width.toNat longJob.height.toNat =
      .ok () := by decide
  have hrender : bareEngine.render longJob bareEngine.newSession =
      bareEngine.renderInto longJob longTarget bareEngine.newSession := by
    rw [render, hgate]
    rfl
  obtain ⟨stats, collected, hcollect⟩ : ∃ stats collected,
      bareEngine.collect longJob (Grid.covering longArea bareEngine.layout)
        (Session.note { bareEngine.newSession with life := Lifecycle.fresh.enter, prepared := 1 }
          (.rendering longArea (Grid.covering longArea bareEngine.layout).size longJob.scale)) =
        (.ok (longTiles, stats), collected) := ⟨_, _, rfl⟩
  rw [hrender]
  exact renderInto_of_collect hgate rfl rfl (by decide) hcollect hcomposite

/-- The only row that there is, all of it a guide line, has a last pixel of another color. On an
output of twice the width the column is not there, whatever else is. -/
theorem guide_lines_get_lost :
    (longJob.validate = .ok () ∧ longJob.viewport = .ok longView ∧
      longView.toOutput 0 0 = .ok (8388608, 0) ∧
      ∃ image, (bareEngine.render longJob bareEngine.newSession).1 = .ok image ∧
        image.width = 16777217 ∧ image.height = 1 ∧
        image.cell? 16777216 0 = some Color.transparent ∧
        bareEngine.compositor.axisColor = Compositor.axisGray) ∧
    (doubleJob.validate = .ok () ∧ doubleJob.viewport = .ok doubleView ∧
      doubleView.toOutput 0 0 = .ok (16777216, 1) ∧
      ∀ (c : Compositor) (canvas : Pixmap), canvas.width = 33554432 → canvas.height = 2 →
        c.drawAxes doubleView canvas = .ok (canvas.coatRect 0 1 33554432 1 c.axisColor)) := by
  constructor
  · obtain ⟨surface, hsurface⟩ :
        ∃ surface, Pixmap.blank? longTarget.width longTarget.height = some surface :=
      Pixmap.exists_blank? (by decide) (by decide) (by decide)
    obtain ⟨-, hsurfaceW, hsurfaceH⟩ := Pixmap.size_of_blank? hsurface
    have hcanvasH : (surface.fill Color.transparent).height = 1 := hsurfaceH
    have hlay : bareEngine.compositor.lay longView surface longTiles =
        .ok (surface.fill Color.transparent) := rfl
    have horigin : longView.toOutput 0 0 = .ok (8388608, 0) := rfl
    obtain ⟨final, hfinal, hcomposite, hwidth, hheight⟩ :=
      Compositor.exists_composite_of_lay (by decide) hsurface hlay
    refine ⟨by decide, rfl, horigin, final.toImage, render_longJob hcomposite, hwidth, hheight, ?_,
      rfl⟩
    have hclear : Color.transparent.paint.straighten = Color.transparent := by decide +kernel
    have hlast : final.cell? 16777216 0 = (surface.fill Color.transparent).cell? 16777216 0 :=
      Compositor.cell?_drawAxes_of_width horigin hsurfaceW (by omega) (by decide) (by omega) hfinal
    rw [Pixmap.toImage, Raster.cell?_map, hlast, Pixmap.fill, Raster.cell?_replicate, hsurfaceW,
      hsurfaceH, if_pos (by decide), Option.map_some, hclear]
  · have horigin : doubleView.toOutput 0 0 = .ok (16777216, 1) := rfl
    refine ⟨by decide, rfl, horigin, fun c canvas hwidth hheight => ?_⟩
    have hrowW := (Compositor.size_coatRow (c := c) 1 canvas).1
    rw [Compositor.drawAxes_of_origin horigin, Compositor.coatColumn_lost (by omega),
      Compositor.coatRow, if_pos (by omega), hwidth]

end Bare

end Engine

end WorldMap
