import WorldMap.CommandLine.Command
import WorldMap.Proofs.Render.Workshop
import WorldMap.Proofs.Terrain.Borders
import WorldMap.Proofs.Terrain.Lines
/-!
# Nothing shows through a terrain

A terrain answers a tile with a height for each of its columns, so the elevation layer leaves no pixel
of the canvas as it was. What it paints is opaque, and darkening keeps it so. The tile background is
under all that: a tile comes to the same on any of them (`Terrain.Previewed.computeTile_onBackground`),
and as an engine has no other use for the color of its tiles, so do its renders.

The size check of a layer is the only thing that a layer of a terrain fails for. A sample has the size
of the tile that it was asked for, so there is nothing for it to find.
-/

namespace WorldMap

/-! ### Work that goes on -/

section

variable {ε δ α β : Type}

theorem Attempt.bind_mapFailure_ok (f : ε → δ) (a : α) (g : α → Attempt δ β) :
    (Attempt.mapFailure f (.ok a) >>= g) = g a := rfl

theorem Attempt.bind_mapFailure_error (f : ε → δ) (failure : Failure ε) (g : α → Attempt δ β) :
    (Attempt.mapFailure f (.error failure) >>= g) = .error (failure.map f) := rfl

end

/-! ### Opaque colors -/

namespace Elevation

variable {s : HeightSample} {canvas canvas' : Pixmap}

theorem a_landColor (t : Float32) : (landColor t).a = 255 := by
  unfold landColor
  split
  · rfl
  · split
    · rfl
    · split <;> rfl

theorem a_color (height seaLevel : Float32) : (color height seaLevel).a = 255 := by
  unfold color
  split
  · rfl
  · exact a_landColor _

/-- A whole sample looks the same on any canvas of its size. -/
theorem shade_congr (hwhole : s.IsWhole) (hfits : s.Fits canvas) (hfits' : s.Fits canvas') :
    shade s canvas = shade s canvas' := by
  refine Raster.eq_of_cell? (hfits.width_eq.trans hfits'.width_eq.symm)
    (hfits.height_eq.trans hfits'.height_eq.symm) fun x z _ _ => ?_
  rw [cell?_shade_of_whole hfits hwhole, cell?_shade_of_whole hfits' hwhole]

end Elevation

namespace Contours

variable {c : Contours} {visible : Bool} {s : HeightSample} {l : Layout} {background : Color}
  {canvas : Pixmap}

theorem a_pixel (c : Contours) (visible : Bool) (s : HeightSample) (x z : Nat) (height : Float32) :
    (c.pixel visible s x z height).a = 255 := by
  have hopaque : (Elevation.color height s.seaLevel).premultiply.a = 255 := by
    rw [Color.a_premultiply, Elevation.a_color]
  unfold pixel
  split
  · exact (shaded_darken _).2.1.trans hopaque
  · exact hopaque

theorem Shows.a_eq {image : Pixmap} (h : c.Shows visible s image) {p : Pixel}
    (hp : p ∈ image.cells) : p.a = 255 := by
  obtain ⟨i, hi⟩ := Array.mem_iff_getElem?.1 hp
  have hplace : i < image.width * image.height := by
    rw [← image.size_cells]
    exact Array.getElem?_eq_some_iff.1 hi |>.1
  obtain ⟨-, -, hcell⟩ := Raster.getElem?_cells hplace
  rw [hi, h.cell?_eq] at hcell
  obtain ⟨height, -, rfl⟩ := Option.map_eq_some_iff.1 hcell.symm
  exact a_pixel ..

/-- On a canvas of the size of the sample the layer has no error of its own. -/
theorem draw_ne_error (hfits : s.Fits canvas) (e : LayerError) :
    (c.layer visible).draw s canvas ≠ .error (.error e) := by
  intro hdraw
  simp only [layer, HeightSample.checkSize_of_fits hfits] at hdraw
  cases hedges : c.edges s (canvas.width * canvas.height) with
  | ok edges =>
    rw [hedges] at hdraw
    cases hdraw
  | error fault =>
    rw [hedges] at hdraw
    cases hdraw

theorem rasterize_ne_layer (hsuits : s.Suits l) (name : String) (e : LayerError) :
    (c.rasterizer visible l background).rasterize s ≠ .error (.error (.layer name e)) := by
  intro hlayer
  cases hblank : Pixmap.blank? l.width.toNat l.depth.toNat with
  | none =>
    simp only [rasterizer, Rasterizer.rasterize, hblank] at hlayer
    cases hlayer
  | some surface =>
    have hfits := hsuits.fits_fill hblank background
    rw [rasterize_eq s hblank hfits] at hlayer
    cases visible with
    | false => cases hlayer
    | true =>
      rw [if_pos rfl, Layer.apply] at hlayer
      cases hdraw : (c.layer true).draw s (Elevation.shade s (surface.fill background)) with
      | ok drawn =>
        rw [hdraw] at hlayer
        cases hlayer
      | error failure =>
        rw [hdraw] at hlayer
        cases failure with
        | error e' => exact draw_ne_error (Elevation.fits_shade hfits) e' hdraw
        | broke _ => cases hlayer

/-- The background is not to be seen, nor does it decide on anything. -/
theorem rasterize_background (hsuits : s.Suits l) (background background' : Color) :
    (c.rasterizer visible l background).rasterize s
      = (c.rasterizer visible l background').rasterize s := by
  cases hblank : Pixmap.blank? l.width.toNat l.depth.toNat with
  | none => simp only [rasterizer, Rasterizer.rasterize, hblank]
  | some surface =>
    have hfits := hsuits.fits_fill hblank background
    have hfits' := hsuits.fits_fill hblank background'
    rw [rasterize_eq s hblank hfits, rasterize_eq s hblank hfits',
      Elevation.shade_congr hsuits.isWhole hfits hfits']

end Contours

/-! ### Engines -/

namespace Engine

variable {σ : Type} {e : Engine σ} {b : Color}

/-- The engine with another background under its tiles. -/
def onBackground (e : Engine σ) (b : Color) : Engine σ :=
  { e with rasterizer := { e.rasterizer with background := b } }

/-- If tiles come to the same on both backgrounds, so does all that is made of them. -/
theorem collect_onBackground (h : (e.onBackground b).computeTile = e.computeTile) :
    (e.onBackground b).collect = e.collect := by
  have hask : (e.onBackground b).askTile = e.askTile := by
    funext t
    rw [askTile_eq, askTile_eq, h]
    rfl
  have hhost : (e.onBackground b).host = e.host := by
    unfold host
    rw [hask]
  unfold collect
  rw [hhost]

theorem renderActive_onBackground (h : (e.onBackground b).computeTile = e.computeTile) :
    (e.onBackground b).renderActive = e.renderActive := by
  have hprepare : (e.onBackground b).prepare = e.prepare := rfl
  have hplan : (e.onBackground b).plan = e.plan := rfl
  have hcompositor : (e.onBackground b).compositor = e.compositor := rfl
  unfold renderActive
  rw [collect_onBackground h, hprepare, hplan, hcompositor]

theorem renderInto_onBackground (h : (e.onBackground b).computeTile = e.computeTile) :
    (e.onBackground b).renderInto = e.renderInto := by
  unfold renderInto
  rw [renderActive_onBackground h]

theorem render_onBackground (h : (e.onBackground b).computeTile = e.computeTile) :
    (e.onBackground b).render = e.render := by
  unfold render
  rw [renderInto_onBackground h]

/-- No color under its tiles makes a difference to what an engine does. -/
structure IgnoresBackground (e : Engine σ) : Prop where
  computeTile_eq : ∀ b, (e.onBackground b).computeTile = e.computeTile
  newSession_eq : ∀ b, (e.onBackground b).newSession = e.newSession
  render_eq : ∀ b, (e.onBackground b).render = e.render
  renderInto_eq : ∀ b, (e.onBackground b).renderInto = e.renderInto
  /-- Calls that are made side by side included. -/
  run_eq : ∀ b (w : Workshop) (acts : List Act),
    w.run (e.onBackground b) (fun _ => (e.onBackground b).computeTile) acts
      = w.run e (fun _ => e.computeTile) acts

/-- An act has no other use for the background than to compute tiles. -/
theorem run_onBackground (e : Engine σ) (b : Color)
    (compute : Nat → Tile → Attempt TileError Pixmap) (w : Workshop) (acts : List Act) :
    w.run (e.onBackground b) compute acts = w.run e compute acts := rfl

theorem ignoresBackground_of_computeTile (h : ∀ b, (e.onBackground b).computeTile = e.computeTile) :
    e.IgnoresBackground where
  computeTile_eq := h
  newSession_eq _ := rfl
  render_eq b := render_onBackground (h b)
  renderInto_eq b := renderInto_onBackground (h b)
  run_eq b w acts := by rw [run_onBackground, h b]

end Engine

/-! ### Previews of terrains -/

namespace Terrain

open Contours

variable {terrain : Terrain} {c : Contours} {visible : Bool} {e : Engine HeightSample}

/-- Every answer has the size that was asked for. -/
theorem suits_of_query {t : Tile} {l : Layout} {s : HeightSample}
    (h : terrain.source.query (t.volume l) = .ok s) : s.Suits l := by
  simp only [source] at h
  split at h
  · cases h
  · obtain rfl := Except.ok.inj h
    rw [sample_eq_ofField]
    exact HeightSample.suits_ofField

/-- The engine asks a terrain, and draws with the layers of one. -/
structure Previewed (terrain : Terrain) (c : Contours) (visible : Bool) (e : Engine HeightSample) :
    Prop where
  source_eq : e.source = terrain.source
  rasterizer_eq : e.rasterizer = c.rasterizer visible e.layout e.rasterizer.background

namespace Previewed

theorem computeTile_eq (h : terrain.Previewed c visible e) (t : Tile) : e.computeTile t = (do
    let s ← (terrain.source.query (t.volume e.layout)).mapFailure TileError.source
    (c.rasterizer visible e.layout e.rasterizer.background).rasterize s) := by
  rw [Engine.computeTile_eq, h.source_eq, ← h.rasterizer_eq]

theorem onBackground (h : terrain.Previewed c visible e) (b : Color) :
    terrain.Previewed c visible (e.onBackground b) where
  source_eq := h.source_eq
  rasterizer_eq := by
    have hlayers : e.rasterizer.layers = [elevationLayer, c.layer visible] :=
      congrArg Rasterizer.layers h.rasterizer_eq
    simp only [Engine.onBackground, hlayers]
    rfl

theorem computeTile_onBackground (h : terrain.Previewed c visible e) (b : Color) :
    (e.onBackground b).computeTile = e.computeTile := by
  funext t
  have hlayout : (e.onBackground b).layout = e.layout := rfl
  rw [(h.onBackground b).computeTile_eq, h.computeTile_eq, hlayout]
  cases hquery : terrain.source.query (t.volume e.layout) with
  | error failure => rw [Attempt.bind_mapFailure_error, Attempt.bind_mapFailure_error]
  | ok s =>
    rw [Attempt.bind_mapFailure_ok, Attempt.bind_mapFailure_ok]
    exact rasterize_background (suits_of_query hquery) _ _

theorem computeTile_ne_layer (h : terrain.Previewed c visible e) (t : Tile) (name : String)
    (le : LayerError) : e.computeTile t ≠ .error (.error (.layer name le)) := by
  intro hlayer
  rw [h.computeTile_eq] at hlayer
  cases hquery : terrain.source.query (t.volume e.layout) with
  | error failure =>
    rw [hquery, Attempt.bind_mapFailure_error] at hlayer
    cases failure <;> cases hlayer
  | ok s =>
    rw [hquery, Attempt.bind_mapFailure_ok] at hlayer
    exact rasterize_ne_layer (suits_of_query hquery) name le hlayer

end Previewed

/-- What the program renders is a terrain. -/
theorem previewed_engine (o : Options) (settings : Settings) (workers : Nat) :
    (ofSeed o.seed).Previewed .standard (!o.hideContours) (o.engine settings workers) :=
  ⟨rfl, rfl⟩

theorem render_withBackground (o : Options) (settings : Settings) (workers : Nat) (b : Color) :
    o.render { settings with tileBackground := b } workers = o.render settings workers := by
  have hengine : o.engine { settings with tileBackground := b } workers
      = (o.engine settings workers).onBackground b := rfl
  have hignores := Engine.ignoresBackground_of_computeTile
    (previewed_engine o settings workers).computeTile_onBackground
  simp only [Options.render, hengine, hignores.newSession_eq b, hignores.render_eq b]

/-- The tile background of a terrain is never to be seen. A tile of any layout that has a surface, and
no more columns than there are words, gives the same image on any two backgrounds, a pixel for each of
its columns and all of them opaque. No layer of a preview ever fails by itself, so the size check does
not; and no preview, and nothing else that its engine does, depends on the background. -/
theorem tile_background_never_shows :
    (∀ (terrain : Terrain) (c : Contours) (visible : Bool) (l : Layout) (t : Tile) (b b' : Color),
      l.HasSurface → l.columns ≤ 4294967296 → ∃ s image,
        terrain.source.query (t.volume l) = .ok s ∧
        (c.rasterizer visible l b).rasterize s = .ok image ∧
        (c.rasterizer visible l b').rasterize s = .ok image ∧
        (image.width = l.width.toNat ∧ image.height = l.depth.toNat) ∧
        ∀ p ∈ image.cells, p.a = 255) ∧
    (∀ (terrain : Terrain) (c : Contours) (visible : Bool) (e : Engine HeightSample),
      terrain.Previewed c visible e → e.IgnoresBackground ∧
        ∀ t name le, e.computeTile t ≠ .error (.error (.layer name le))) ∧
    ∀ (o : Options) (settings : Settings) (workers : Nat),
      (ofSeed o.seed).Previewed .standard (!o.hideContours) (o.engine settings workers) ∧
        ∀ b, o.render { settings with tileBackground := b } workers = o.render settings workers := by
  refine ⟨fun terrain c visible l t b b' hsurface hcolumns => ?_,
    fun terrain c visible e h => ⟨?_, h.computeTile_ne_layer⟩,
    fun o settings workers =>
      ⟨previewed_engine o settings workers, render_withBackground o settings workers⟩⟩
  · have hsuits : (HeightSample.ofField terrain.heightAt terrain.seaLevel (t.volume l)).Suits l :=
      HeightSample.suits_ofField
    have hdrawn : ∃ image, (c.rasterizer visible l b).rasterize _ = .ok image ∧
        c.Shows visible _ image := exists_rasterize hsuits hsurface (.inr hcolumns)
    obtain ⟨image, himage, hshows⟩ := hdrawn
    exact ⟨_, image, terrain.query_of_hasSurface t hsurface, himage,
      (rasterize_background hsuits b' b).trans himage, ⟨hshows.width_eq, hshows.height_eq⟩,
      fun p hp => hshows.a_eq hp⟩
  · exact Engine.ignoresBackground_of_computeTile h.computeTile_onBackground

private def clearRed : Color := ⟨255, 0, 0, 1⟩

private def halfBlue : Color := ⟨0, 0, 255, 128⟩

/-- A narrow tile left of the origin, with and without contours, and the whole program. -/
theorem tile_background_never_shows_onTwoColors :
    (∀ visible, ∃ s image,
      (ofSeed 5).source.query (Tile.volume ⟨-1, 2⟩ (.ofFootprint 3 2)) = .ok s ∧
      ((ofLevels 7).rasterizer visible (.ofFootprint 3 2) clearRed).rasterize s = .ok image ∧
      ((ofLevels 7).rasterizer visible (.ofFootprint 3 2) halfBlue).rasterize s = .ok image ∧
      image.width = 3 ∧ image.height = 2 ∧ ∀ p ∈ image.cells, p.a = 255) ∧
    (Options.standard.engine .standard 4).IgnoresBackground ∧
    Options.standard.render { Settings.standard with tileBackground := clearRed } 4
      = Options.standard.render { Settings.standard with tileBackground := halfBlue } 4 := by
  obtain ⟨htiles, hengines, hprogram⟩ := tile_background_never_shows
  obtain ⟨hpreviewed, hrender⟩ := hprogram .standard .standard 4
  refine ⟨fun visible => ?_, (hengines _ _ _ _ hpreviewed).1,
    (hrender clearRed).trans (hrender halfBlue).symm⟩
  obtain ⟨s, image, hquery, hred, hblue, ⟨hwidth, hheight⟩, hopaque⟩ :=
    htiles (ofSeed 5) (ofLevels 7) visible (.ofFootprint 3 2) ⟨-1, 2⟩ clearRed halfBlue (by decide)
      (by decide)
  exact ⟨s, image, hquery, hred, hblue, hwidth, hheight, hopaque⟩

end Terrain

end WorldMap
