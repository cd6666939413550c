import WorldMap.Proofs.Geometry.Viewport
import WorldMap.Proofs.Image.Drawing
import WorldMap.Tiles.Compositor
/-!
# The canvas of a composition

Composing lays the background and then the tiles on a surface, draws the guide lines over them, and
writes the canvas over the target. A target without a surface of its size is left as it is; every
other is written over in full, as its old contents take no part. There is one way for this to come to
nothing, which is a tile whose image reaches out of the 32-bit plane (`exists_lay_iff`,
`exists_composite_iff`).
-/

namespace WorldMap

namespace Pixmap

theorem blank?_eq_none_iff {width height : Nat} :
    blank? width height = none ↔ width = 0 ∨ height = 0 ∨ maxSurfaceWidth < width := by
  unfold blank?
  split
  · rename_i hnone
    exact ⟨fun _ => hnone, fun _ => rfl⟩
  · rename_i hsome
    constructor
    · intro hblank
      cases hblank
    · intro hnone
      exact absurd hnone hsome

theorem exists_blank? {width height : Nat} (hwidth : 0 < width) (hle : width ≤ maxSurfaceWidth)
    (hheight : 0 < height) : ∃ surface, blank? width height = some surface := by
  cases hblank : blank? width height with
  | some surface => exact ⟨surface, rfl⟩
  | none =>
    have hnone := blank?_eq_none_iff.1 hblank
    omega

end Pixmap

/-- The image of a tile, moved to the 32-bit place of the tile, ends in 32 bits. -/
def TileResult.IsPlaced (l : Layout) (t : TileResult Pixmap) : Prop :=
  ∀ image, t.image = some image →
    (Int32.ofInt (t.tile.originX l)).toInt + image.width ∈ IntRange.signed32 ∧
      (Int32.ofInt (t.tile.originZ l)).toInt + image.height ∈ IntRange.signed32

namespace Compositor

variable {c : Compositor} {v : Viewport} {tiles : List (TileResult Pixmap)} {t : TileResult Pixmap}
  {surface canvas next : Pixmap} {target : Image} {fault : Fault}

/-- What the background and the tiles leave on a surface. -/
def lay (c : Compositor) (v : Viewport) (surface : Pixmap) (tiles : List (TileResult Pixmap)) :
    Checked Pixmap :=
  tiles.foldlM (c.drawTile v) (surface.fill c.background)

theorem composite_of_surface (hsurface : Pixmap.blank? target.width target.height = some surface) :
    c.composite target v tiles = (do
      let canvas ← c.lay v surface tiles
      let final ← c.drawAxes v canvas
      return final.toImage) := by
  rw [composite, hsurface]
  rfl

theorem composite_of_no_surface (hnone : Pixmap.blank? target.width target.height = none) :
    c.composite target v tiles = .ok target := by
  rw [composite, hnone]

/-- As far as there is a surface of its size, a target is written over in full. -/
theorem composite_congr {target' : Image} (hwidth : target.width = target'.width)
    (hheight : target.height = target'.height)
    (hsurface : Pixmap.blank? target.width target.height = some surface) :
    c.composite target v tiles = c.composite target' v tiles := by
  rw [composite_of_surface hsurface]
  rw [hwidth, hheight] at hsurface
  rw [composite_of_surface hsurface]

/-! ### Tiles -/

theorem drawTile_of_none (himage : t.image = none) : c.drawTile v canvas t = .ok canvas := by
  rw [drawTile, himage]

/-- A tile is drawn at its 32-bit place. -/
theorem drawTile_of_isPlaced {image : Pixmap} (himage : t.image = some image)
    (hplaced : t.IsPlaced c.layout) :
    c.drawTile v canvas t = .ok (canvas.drawImage image (Int32.ofInt (t.tile.originX c.layout)).toInt
      (Int32.ofInt (t.tile.originZ c.layout)).toInt v.offsetX.toInt v.offsetY.toInt v.scale) := by
  obtain ⟨hright, hbottom⟩ := hplaced image himage
  simp only [drawTile, himage, IntRange.check_of_mem hright, IntRange.check_of_mem hbottom]
  rfl

/-- A tile that reaches out of the plane is not drawn. -/
theorem drawTile_of_not_isPlaced (hnot : ¬ t.IsPlaced c.layout) :
    c.drawTile v canvas t = .error .rectangle := by
  have hchecked {n : Int} (hn : n ∉ IntRange.signed32) :
      IntRange.signed32.check .rectangle n = .error .rectangle := IntRange.check_of_not_mem hn
  simp only [TileResult.IsPlaced, not_forall] at hnot
  obtain ⟨image, himage, hout⟩ := hnot
  simp only [drawTile, himage]
  by_cases hright : (Int32.ofInt (t.tile.originX c.layout)).toInt + image.width ∈ IntRange.signed32
  · rw [IntRange.check_of_mem hright, hchecked fun hbottom => hout ⟨hright, hbottom⟩]
    rfl
  · rw [hchecked hright]
    rfl

theorem isPlaced_of_drawTile (hdraw : c.drawTile v canvas t = .ok next) : t.IsPlaced c.layout := by
  refine Classical.byContradiction fun hnot => ?_
  rw [drawTile_of_not_isPlaced hnot] at hdraw
  cases hdraw

theorem exists_drawTile_iff : (∃ next, c.drawTile v canvas t = .ok next) ↔ t.IsPlaced c.layout := by
  constructor
  · rintro ⟨next, hdraw⟩
    exact isPlaced_of_drawTile hdraw
  · intro hplaced
    cases himage : t.image with
    | none => exact ⟨canvas, drawTile_of_none himage⟩
    | some image => exact ⟨_, drawTile_of_isPlaced himage hplaced⟩

theorem drawTile_eq_error_iff : c.drawTile v canvas t = .error fault ↔
    fault = .rectangle ∧ ¬ t.IsPlaced c.layout := by
  by_cases hplaced : t.IsPlaced c.layout
  · obtain ⟨next, hok⟩ : ∃ next, c.drawTile v canvas t = .ok next :=
      exists_drawTile_iff.2 hplaced
    simp [hok, hplaced]
  · simp [drawTile_of_not_isPlaced hplaced, hplaced, eq_comm]

theorem size_of_drawTile (hdraw : c.drawTile v canvas t = .ok next) :
    next.width = canvas.width ∧ next.height = canvas.height := by
  cases himage : t.image with
  | none =>
    rw [drawTile_of_none himage] at hdraw
    cases hdraw
    exact ⟨rfl, rfl⟩
  | some image =>
    rw [drawTile_of_isPlaced himage (isPlaced_of_drawTile hdraw)] at hdraw
    cases hdraw
    exact Pixmap.size_drawImage ..

/-- Tiles are drawn until there is one that cannot be. -/
theorem exists_of_foldlM_drawTile (h : tiles.foldlM (c.drawTile v) canvas = .error fault) :
    ∃ t ∈ tiles, ∃ canvas', c.drawTile v canvas' t = .error fault := by
  induction tiles generalizing canvas with
  | nil => simp [pure, Except.pure] at h
  | cons t tiles ih =>
    rw [List.foldlM_cons] at h
    cases hdraw : c.drawTile v canvas t with
    | error f =>
      rw [hdraw] at h
      exact ⟨t, List.mem_cons_self, canvas, hdraw.trans h⟩
    | ok next =>
      rw [hdraw] at h
      obtain ⟨t', ht', canvas', hcanvas'⟩ := ih h
      exact ⟨t', List.mem_cons_of_mem t ht', canvas', hcanvas'⟩

/-- What every tile keeps up, all of them do: the size of the canvas, and places in 32 bits. -/
theorem of_foldlM_drawTile (h : tiles.foldlM (c.drawTile v) canvas = .ok next) :
    next.width = canvas.width ∧ next.height = canvas.height ∧ ∀ t ∈ tiles, t.IsPlaced c.layout := by
  induction tiles generalizing canvas with
  | nil =>
    cases h
    exact ⟨rfl, rfl, fun t ht => absurd ht List.not_mem_nil⟩
  | cons t tiles ih =>
    rw [List.foldlM_cons] at h
    cases hdraw : c.drawTile v canvas t with
    | error f =>
      rw [hdraw] at h
      cases h
    | ok drawn =>
      rw [hdraw] at h
      obtain ⟨hwidth, hheight, hplaced⟩ := ih h
      obtain ⟨hwidth', hheight'⟩ := size_of_drawTile hdraw
      refine ⟨hwidth.trans hwidth', hheight.trans hheight', fun t' ht' => ?_⟩
      rcases List.mem_cons.1 ht' with rfl | ht'
      · exact isPlaced_of_drawTile hdraw
      · exact hplaced t' ht'

theorem exists_lay_iff :
    (∃ canvas, c.lay v surface tiles = .ok canvas) ↔ ∀ t ∈ tiles, t.IsPlaced c.layout := by
  constructor
  · rintro ⟨canvas, hlay⟩
    exact (of_foldlM_drawTile hlay).2.2
  · intro hplaced
    cases hlay : c.lay v surface tiles with
    | ok canvas => exact ⟨canvas, rfl⟩
    | error f =>
      obtain ⟨t, ht, canvas, herror⟩ := exists_of_foldlM_drawTile hlay
      obtain ⟨next, hdraw⟩ : ∃ next, c.drawTile v canvas t = .ok next :=
        exists_drawTile_iff.2 (hplaced t ht)
      rw [hdraw] at herror
      cases herror

theorem size_of_lay (hlay : c.lay v surface tiles = .ok canvas) :
    canvas.width = surface.width ∧ canvas.height = surface.height := by
  obtain ⟨hwidth, hheight, -⟩ := of_foldlM_drawTile hlay
  exact ⟨hwidth, hheight⟩

/-! ### Guide lines and output -/

/-- The canvas with a guide line in row `y`, if it has that row. -/
def coatRow (c : Compositor) (y : Int) (canvas : Pixmap) : Pixmap :=
  if 0 ≤ y ∧ y < canvas.height then canvas.coatRect 0 y canvas.width 1 c.axisColor else canvas

/-- The canvas with a guide line in column `x`, if it has that column. -/
def coatColumn (c : Compositor) (x : Int) (canvas : Pixmap) : Pixmap :=
  if 0 ≤ x ∧ x < canvas.width then canvas.coatRect x 0 1 canvas.height c.axisColor else canvas

theorem size_coatRow (y : Int) (canvas : Pixmap) :
    (c.coatRow y canvas).width = canvas.width ∧ (c.coatRow y canvas).height = canvas.height := by
  unfold coatRow
  split
  · exact Pixmap.size_coatRect ..
  · exact ⟨rfl, rfl⟩

theorem size_coatColumn (x : Int) (canvas : Pixmap) :
    (c.coatColumn x canvas).width = canvas.width ∧
      (c.coatColumn x canvas).height = canvas.height := by
  unfold coatColumn
  split
  · exact Pixmap.size_coatRect ..
  · exact ⟨rfl, rfl⟩

theorem drawAxes_of_origin {x y : Int} (horigin : v.toOutput 0 0 = .ok (x, y)) :
    c.drawAxes v canvas = .ok (c.coatColumn x (c.coatRow y canvas)) := by
  rw [drawAxes, horigin]
  rfl

/-- Guide lines can always be drawn, and keep the size of the canvas. -/
theorem exists_drawAxes (hscale : v.scale ≠ 0) (canvas : Pixmap) :
    ∃ final, c.drawAxes v canvas = .ok final ∧ final.width = canvas.width ∧
      final.height = canvas.height := by
  refine ⟨_, drawAxes_of_origin (Viewport.toOutput_origin hscale), ?_, ?_⟩
  · exact (size_coatColumn ..).1.trans (size_coatRow ..).1
  · exact (size_coatColumn ..).2.trans (size_coatRow ..).2

theorem composite_of_lay_error (hsurface : Pixmap.blank? target.width target.height = some surface)
    (hlay : c.lay v surface tiles = .error fault) : c.composite target v tiles = .error fault := by
  rw [composite_of_surface hsurface, hlay]
  rfl

theorem composite_of_lay (hsurface : Pixmap.blank? target.width target.height = some surface)
    (hlay : c.lay v surface tiles = .ok canvas) :
    c.composite target v tiles = (c.drawAxes v canvas).map Pixmap.toImage := by
  rw [composite_of_surface hsurface, hlay]
  change (c.drawAxes v canvas >>= fun final => pure final.toImage) = _
  cases c.drawAxes v canvas with
  | error _ => rfl
  | ok _ => rfl

/-- Once its tiles lie on the canvas, nothing keeps a composition from its output. -/
theorem exists_composite_of_lay (hscale : v.scale ≠ 0)
    (hsurface : Pixmap.blank? target.width target.height = some surface)
    (hlay : c.lay v surface tiles = .ok canvas) :
    ∃ final, c.drawAxes v canvas = .ok final ∧ c.composite target v tiles = .ok final.toImage ∧
      final.width = target.width ∧ final.height = target.height := by
  obtain ⟨final, hfinal, hwidth, hheight⟩ := exists_drawAxes (c := c) hscale canvas
  obtain ⟨hcanvasW, hcanvasH⟩ := size_of_lay hlay
  obtain ⟨-, hsurfaceW, hsurfaceH⟩ := Pixmap.size_of_blank? hsurface
  refine ⟨final, hfinal, ?_, hwidth.trans (hcanvasW.trans hsurfaceW),
    hheight.trans (hcanvasH.trans hsurfaceH)⟩
  rw [composite_of_lay hsurface hlay, hfinal]
  rfl

theorem exists_composite_iff (hscale : v.scale ≠ 0)
    (hsurface : Pixmap.blank? target.width target.height = some surface) :
    (∃ out, c.composite target v tiles = .ok out) ↔ ∀ t ∈ tiles, t.IsPlaced c.layout := by
  have hlaid : (∃ canvas, c.lay v surface tiles = .ok canvas) ↔ ∀ t ∈ tiles, t.IsPlaced c.layout :=
    exists_lay_iff
  rw [← hlaid]
  constructor
  · rintro ⟨out, hout⟩
    cases hlay : c.lay v surface tiles with
    | ok canvas => exact ⟨canvas, rfl⟩
    | error f =>
      rw [composite_of_lay_error hsurface hlay] at hout
      cases hout
  · rintro ⟨canvas, hlay⟩
    obtain ⟨final, -, hcomposite, -⟩ := exists_composite_of_lay hscale hsurface hlay
    exact ⟨_, hcomposite⟩

/-- Only a tile whose image is not placed can keep tiles from being composed. -/
theorem exists_not_isPlaced_of_composite (hscale : v.scale ≠ 0)
    (hcomposite : c.composite target v tiles = .error fault) :
    fault = .rectangle ∧ ∃ t ∈ tiles, ¬ t.IsPlaced c.layout := by
  cases hsurface : Pixmap.blank? target.width target.height with
  | none =>
    rw [composite_of_no_surface hsurface] at hcomposite
    cases hcomposite
  | some surface =>
    cases hlay : c.lay v surface tiles with
    | error f =>
      rw [composite_of_lay_error hsurface hlay] at hcomposite
      obtain rfl : f = fault := Except.error.inj hcomposite
      obtain ⟨t, ht, canvas, hdraw⟩ := exists_of_foldlM_drawTile hlay
      obtain ⟨hfault, hnot⟩ := drawTile_eq_error_iff.1 hdraw
      exact ⟨hfault, t, ht, hnot⟩
    | ok canvas =>
      obtain ⟨final, -, hok, -⟩ := exists_composite_of_lay hscale hsurface hlay
      rw [hok] at hcomposite
      cases hcomposite

end Compositor

end WorldMap
